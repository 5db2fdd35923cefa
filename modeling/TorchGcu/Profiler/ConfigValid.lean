import TorchGcu.Profiler.ConfigParse

/-! The settings that a parse leaves: valid ones, or what the lines before a rejected one set. -/
namespace TorchGcu.ProfilerConfig

variable {processId : Text}

/-! ### Lines -/

theorem requestedMegabytes_cons (option : Text × Text) (options : List (Text × Text)) :
    requestedMegabytes (option :: options) =
      (requestedMegabytes options).or (megabytes option) := by
  unfold requestedMegabytes
  cases asked : megabytes option with
  | none => rw [List.filterMap_cons_none asked, Option.or_none]
  | some n =>
    rw [List.filterMap_cons_some asked, List.getLast?_cons]
    cases (options.filterMap megabytes).getLast? <;> rfl

/-- A line that is taken has an option. -/
theorem parseLine_ok {now : Int} {c c' : Config} {line : Text} (usual : Usual c)
    (parsed : parseLine processId now c line = .ok c') :
    ∃ option, entry line = some option ∧ Usual c' ∧
      c'.activitiesMaxGcuBufferSize =
        (megabytes option).elim c.activitiesMaxGcuBufferSize (· * 1024 * 1024) := by
  unfold parseLine at parsed
  split at parsed
  · rename_i name val isEntry
    refine ⟨(name, val), isEntry, ?_⟩
    unfold handleOption at parsed
    split at parsed
    · rename_i key known
      obtain ⟨usual', buffer⟩ := handleKey_buffer usual parsed
      refine ⟨usual', buffer.trans ?_⟩
      simp only [megabytes, known, Option.some.injEq]
    · rename_i unknown
      cases parsed
      refine ⟨usual, ?_⟩
      simp [megabytes, unknown]
  · cases parsed

theorem parseLines_ok {clock : List Int} {c c' : Config} {all : List Text} (usual : Usual c)
    (parsed : parseLines processId clock c all = .ok c') :
    Usual c' ∧ c'.activitiesMaxGcuBufferSize = bufferSize c (all.filterMap entry) := by
  induction all generalizing clock c with
  | nil =>
    cases parsed
    exact ⟨usual, rfl⟩
  | cons line rest ih =>
    rw [parseLines] at parsed
    cases first : parseLine processId (clock.headD 0) c line with
    | error r =>
      rw [first] at parsed
      cases parsed
    | ok middle =>
      rw [first] at parsed
      obtain ⟨option, isEntry, usual', buffer⟩ := parseLine_ok usual first
      obtain ⟨usual'', buffers⟩ := ih usual' parsed
      refine ⟨usual'', buffers.trans ?_⟩
      rw [List.filterMap_cons_some isEntry]
      unfold bufferSize
      rw [requestedMegabytes_cons]
      cases requestedMegabytes (rest.filterMap entry) with
      | none => exact buffer
      | some n => rfl

theorem parseLine_error {now : Int} {c : Config} {line : Text} {r : Rejected}
    (parsed : parseLine processId now c line = .error r) : r.config = leftByLine c line := by
  unfold parseLine at parsed
  unfold leftByLine
  split at parsed
  · rename_i name val isEntry
    rw [isEntry, Option.elim_some]
    unfold handleOption at parsed
    split at parsed
    · rename_i key known
      rw [known, Option.elim_some]
      exact handleKey_error parsed
    · cases parsed
  · rename_i isEntry
    cases parsed
    rw [isEntry, Option.elim_none]

theorem parseLine_invalid {now : Int} {c : Config} {line : Text} {r : Rejected}
    (clock : 0 ≤ now ∧ now < 2 ^ 62) (modest : ∀ option, entry line = some option → Modest option)
    (parsed : parseLine processId now c line = .error r) : r.failure = .invalidArgument := by
  unfold parseLine at parsed
  split at parsed
  · rename_i name val isEntry
    have own := modest _ isEntry
    unfold handleOption at parsed
    split at parsed
    · rename_i key known
      refine handleKey_invalid clock (fun isSize => own.buffer (isSize ▸ known)) ?_ parsed
      rintro (isTime | isTime)
      · exact own.time (.inl (isTime ▸ known))
      · exact own.time (.inr (isTime ▸ known))
    · cases parsed
  · cases parsed
    rfl

theorem parseLines_stopped {first : Int} {clock : List Int} {c : Config} {all : List Text}
    {r : Rejected} (parsed : parseLines processId clock c all = .error r)
    (invalid : r.failure = .invalidArgument) :
    StoppedAt processId first clock c all r.config := by
  induction all generalizing clock c with
  | nil => cases parsed
  | cons line rest ih =>
    rw [parseLines] at parsed
    cases begun : parseLine processId (clock.headD 0) c line with
    | error other =>
      rw [begun] at parsed
      cases parsed
      exact ⟨[], line, rest, c, rfl, rfl, ⟨r, begun, invalid⟩, .inl (parseLine_error begun)⟩
    | ok middle =>
      rw [begun] at parsed
      obtain ⟨done, stopped, later, before, split, isBefore, rejected, left⟩ := ih parsed
      refine ⟨line :: done, stopped, later, before, by rw [split, List.cons_append], ?_, ?_, left⟩
      · rw [parseLines, begun]
        exact isBefore
      · rwa [List.length_cons, Nat.add_comm, ← List.drop_drop, List.drop_one]

theorem parseLines_invalid {clock : List Int} {c : Config} {all : List Text} {r : Rejected}
    (times : ∀ now ∈ clock, 0 ≤ now ∧ now < 2 ^ 62)
    (modest : ∀ option ∈ all.filterMap entry, Modest option)
    (parsed : parseLines processId clock c all = .error r) : r.failure = .invalidArgument := by
  induction all generalizing clock c with
  | nil => cases parsed
  | cons line rest ih =>
    have now : 0 ≤ clock.headD 0 ∧ clock.headD 0 < 2 ^ 62 := by
      cases clock with
      | nil => decide
      | cons now later => exact times now List.mem_cons_self
    rw [parseLines] at parsed
    cases first : parseLine processId (clock.headD 0) c line with
    | error other =>
      rw [first] at parsed
      cases parsed
      refine parseLine_invalid now (fun option isEntry => modest option ?_) first
      exact List.mem_filterMap.mpr ⟨line, List.mem_cons_self, isEntry⟩
    | ok middle =>
      rw [first] at parsed
      refine ih (fun now member => times now (List.mem_of_mem_tail member)) ?_ parsed
      intro option member
      obtain ⟨later, isLater, isEntry⟩ := List.mem_filterMap.mp member
      exact modest option (List.mem_filterMap.mpr
        ⟨later, List.mem_cons_of_mem line isLater, isEntry⟩)

theorem parseLines_defined {clock : List Int} {c : Config} {all : List Text} {r : Rejected}
    (parsed : parseLines processId clock c all = .error r) : r.failure ≠ .divisionByZero := by
  induction all generalizing clock c with
  | nil => cases parsed
  | cons line rest ih =>
    rw [parseLines] at parsed
    cases first : parseLine processId (clock.headD 0) c line with
    | error other =>
      rw [first] at parsed
      cases parsed
      unfold parseLine handleOption at first
      split at first
      · split at first
        · exact handleKey_defined first
        · cases first
      · cases first
        simp
    | ok middle =>
      rw [first] at parsed
      exact ih parsed

/-! ### Validation -/

theorem modulo_of_pos {a b : Int} (least : 0 ≤ a) (positive : 0 < b) :
    modulo a b = .ok (a % b) := by
  rw [modulo, if_neg positive.ne', Int.tmod_eq_emod_of_nonneg least]

theorem alignUp_ok {duration alignment : Int} (least : 0 ≤ duration) (positive : 0 < alignment)
    (small : duration + alignment < 2 ^ 63) :
    ∃ aligned, alignUp duration alignment = .ok aligned ∧ duration < aligned ∧
      aligned ≤ duration + alignment ∧ alignment ∣ aligned := by
  have rest := Int.emod_nonneg (duration + alignment) positive.ne'
  have short := Int.emod_lt_of_pos (duration + alignment) positive
  refine ⟨duration + alignment - (duration + alignment) % alignment, ?_, by omega, by omega,
    Int.dvd_self_sub_emod⟩
  simp only [alignUp, bind, Except.bind]
  rw [int64_of_bounds (by omega) small]
  simp only
  rw [modulo_of_pos (by omega) positive]
  exact int64_of_bounds (by omega) (by omega)

theorem validateMultiplexPeriod_ok {c : Config}
    (sample : 0 < c.samplePeriod ∧ c.samplePeriod < 2 ^ 61)
    (multiplex : c.samplePeriod ≤ c.multiplexPeriod ∧ c.multiplexPeriod < 2 ^ 61) :
    ∃ period, validateMultiplexPeriod c = .ok { c with multiplexPeriod := period } ∧
      0 < period ∧ period < 2 ^ 62 ∧ c.samplePeriod ∣ period := by
  have least : 0 ≤ c.multiplexPeriod := by omega
  obtain ⟨aligned, isAligned, above, below, divides⟩ := alignUp_ok least sample.1 (by omega)
  simp only [validateMultiplexPeriod, modulo_of_pos (a := c.multiplexPeriod) (by omega) sample.1,
    bind, Except.bind, isAligned]
  split
  · exact ⟨aligned, rfl, by omega, by omega, divides⟩
  · rename_i even
    exact ⟨c.multiplexPeriod, rfl, by omega, by omega,
      Int.dvd_of_emod_eq_zero (not_ne_iff.mp even)⟩

theorem validateReportPeriod_ok {c : Config}
    (multiplex : 0 < c.multiplexPeriod ∧ c.multiplexPeriod < 2 ^ 62)
    (report : 0 ≤ c.reportPeriod ∧ c.reportPeriod < 2 ^ 61) :
    ∃ period, validateReportPeriod c = .ok { c with reportPeriod := period } ∧
      0 < period ∧ c.multiplexPeriod ∣ period := by
  have least : 0 ≤ c.reportPeriod := by omega
  obtain ⟨aligned, isAligned, above, below, divides⟩ := alignUp_ok least multiplex.1 (by omega)
  simp only [validateReportPeriod, modulo_of_pos (a := c.reportPeriod) (by omega) multiplex.1,
    bind, Except.bind, isAligned]
  split
  · exact ⟨aligned, rfl, by omega, divides⟩
  · rename_i even
    obtain ⟨even, some⟩ := not_or.mp even
    exact ⟨c.reportPeriod, rfl, by omega, Int.dvd_of_emod_eq_zero (not_ne_iff.mp even)⟩

theorem validateSamplesPerReport_ok {c : Config} (sample : 0 < c.samplePeriod)
    (report : 0 < c.reportPeriod) (fits : c.samplePeriod ≤ c.reportPeriod)
    (samples : 1 ≤ c.samplesPerReport) :
    ∃ count, validateSamplesPerReport c = .ok { c with samplesPerReport := count } ∧
      (c.reportPeriod / c.samplePeriod < 2 ^ 31 →
        1 ≤ count ∧ count ≤ c.reportPeriod / c.samplePeriod) := by
  have most : 1 ≤ c.reportPeriod / c.samplePeriod :=
    (Int.le_ediv_iff_mul_le sample).mpr (by omega)
  simp only [validateSamplesPerReport, maxSamplesPerReport, if_neg sample.ne', bind, Except.bind]
  rw [Int.tdiv_eq_ediv_of_nonneg report.le]
  split
  · refine ⟨_, rfl, fun small => ?_⟩
    rw [Int.bmod_eq_of_le (by omega) (by omega)]
    omega
  · rename_i within
    refine ⟨c.samplesPerReport, rfl, fun small => ?_⟩
    rw [Int.bmod_eq_of_le (by omega) (by omega)] at within
    omega

theorem validateStartTime_ok {c : Config} {first : Int} (clock : 0 ≤ first ∧ first < 2 ^ 62)
    (warmup : 0 ≤ c.activitiesWarmupDuration ∧ c.activitiesWarmupDuration < 2 ^ 31) :
    ∃ start, validateStartTime first c = .ok { c with profileStartTime := start } := by
  unfold validateStartTime
  split
  · exact ⟨c.profileStartTime, rfl⟩
  · simp only [bind, Except.bind, startBuffer]
    rw [int64_of_bounds (by omega) (by omega)]
    simp only
    rw [int64_of_bounds (by omega) (by omega)]
    exact ⟨_, rfl⟩

/-- The last steps of the validation leave the periods alone. -/
theorem validateRest_same (c : Config) :
    let after := validateActivityTypes (validateIterations c)
    SameBounds c after ∧ after.samplesPerReport = c.samplesPerReport := by
  simp only [validateActivityTypes, validateIterations]
  split_ifs
  all_goals exact ⟨⟨rfl, rfl, rfl, rfl, rfl⟩, rfl⟩

theorem buffers_pos {size : Int} (least : 0 ≤ size) : 0 < maxGcuBufferCount size := by
  have := Int.tdiv_nonneg least (b := 4 * 1024 * 1024) (by decide)
  unfold maxGcuBufferCount
  omega

/-- Usual settings are validated, without a division by zero and without an overflow. -/
theorem validate_ok {c : Config} {first : Int} (usual : Usual c)
    (clock : 0 ≤ first ∧ first < 2 ^ 62) :
    ∃ c', validate first c = .ok c' ∧ Valid c' ∧
      c'.activitiesMaxGcuBufferSize = c.activitiesMaxGcuBufferSize := by
  obtain ⟨sample, multiplex, report, warmup, buffer⟩ := usual
  -- the periods one after the other, each one on the one before
  obtain ⟨sampleLeast, sampleSame⟩ : (0 < (validateSamplePeriod c).samplePeriod ∧
      (validateSamplePeriod c).samplePeriod < 2 ^ 61) ∧
      validateSamplePeriod c =
        { c with samplePeriod := (validateSamplePeriod c).samplePeriod } := by
    unfold validateSamplePeriod
    split
    · have one : (0 : Int) < 1 ∧ (1 : Int) < 2 ^ 61 := by decide
      exact ⟨one, rfl⟩
    · exact ⟨⟨by omega, sample.2⟩, rfl⟩
  generalize (validateSamplePeriod c).samplePeriod = samplePeriod at sampleLeast sampleSame
  obtain ⟨clamped, isClamped, clampedLeast, clampedMost⟩ : ∃ clamped,
      clampMultiplexPeriod { c with samplePeriod := samplePeriod } =
        { c with samplePeriod := samplePeriod, multiplexPeriod := clamped } ∧
      samplePeriod ≤ clamped ∧ clamped < 2 ^ 61 := by
    unfold clampMultiplexPeriod
    split
    · exact ⟨samplePeriod, rfl, le_refl _, sampleLeast.2⟩
    · rename_i above
      exact ⟨c.multiplexPeriod, rfl, not_lt.mp above, multiplex.2⟩
  obtain ⟨multiplexPeriod, isMultiplex, multiplexLeast, multiplexMost, multiplexDvd⟩ :=
    validateMultiplexPeriod_ok
      (c := { c with samplePeriod := samplePeriod, multiplexPeriod := clamped })
      sampleLeast ⟨clampedLeast, clampedMost⟩
  obtain ⟨reportPeriod, isReport, reportLeast, reportDvd⟩ :=
    validateReportPeriod_ok
      (c := { c with samplePeriod := samplePeriod, multiplexPeriod := multiplexPeriod })
      ⟨multiplexLeast, multiplexMost⟩ report
  have fits : samplePeriod ≤ reportPeriod :=
    Int.le_of_dvd reportLeast (Int.dvd_trans multiplexDvd reportDvd)
  obtain ⟨raised, isRaised, raisedLeast⟩ : ∃ raised,
      raiseSamplesPerReport
          { c with
            samplePeriod := samplePeriod
            multiplexPeriod := multiplexPeriod
            reportPeriod := reportPeriod } =
        { c with
          samplePeriod := samplePeriod
          multiplexPeriod := multiplexPeriod
          reportPeriod := reportPeriod
          samplesPerReport := raised } ∧ 1 ≤ raised := by
    unfold raiseSamplesPerReport
    split
    · exact ⟨1, rfl, le_refl 1⟩
    · rename_i enough
      exact ⟨c.samplesPerReport, rfl, not_lt.mp enough⟩
  obtain ⟨count, isCount, countBounds⟩ :=
    validateSamplesPerReport_ok
      (c :=
        { c with
          samplePeriod := samplePeriod
          multiplexPeriod := multiplexPeriod
          reportPeriod := reportPeriod
          samplesPerReport := raised })
      sampleLeast.1 reportLeast fits raisedLeast
  obtain ⟨start, isStart⟩ :=
    validateStartTime_ok
      (c :=
        { c with
          samplePeriod := samplePeriod
          multiplexPeriod := multiplexPeriod
          reportPeriod := reportPeriod
          samplesPerReport := count })
      clock warmup
  obtain ⟨same, samples⟩ := validateRest_same
    { c with
      samplePeriod := samplePeriod
      multiplexPeriod := multiplexPeriod
      reportPeriod := reportPeriod
      samplesPerReport := count
      profileStartTime := start }
  refine ⟨_, ?_, ⟨?_, ?_, ?_, ?_, ?_⟩, same.buffer⟩
  · simp only [validate, sampleSame, isClamped, isMultiplex, isReport, isRaised, isCount, isStart,
      bind, Except.bind]
    rfl
  · rw [same.samplePeriod]
    exact sampleLeast.1
  · rw [same.samplePeriod, same.multiplexPeriod]
    exact ⟨multiplexLeast, multiplexDvd⟩
  · rw [same.multiplexPeriod, same.reportPeriod]
    exact ⟨reportLeast, reportDvd⟩
  · rw [same.samplePeriod, same.reportPeriod, samples]
    exact countBounds
  · rw [same.buffer]
    exact buffers_pos buffer

/-! ### Parsing -/

/-- The result of parsing usual settings: valid ones with the size that was asked for, or what the
lines before a rejected one left. Only sizes and times that are too large have no result. -/
def Meets (processId : Text) (first : Int) (clock : List Int) (config : Config) (conf : Text) :
    Outcome → Prop
  | .parsed c => Valid c ∧ c.activitiesMaxGcuBufferSize = bufferSize config (entries conf)
  | .rejected c =>
    StoppedAt processId first clock { config with timestamp := first } (lines conf) c
  | .undefined failure => failure = .overflow ∧ ¬ ∀ option ∈ entries conf, Modest option

theorem parse_meets (processId : Text) (first last : Int) (clock : List Int) (config : Config)
    (conf : Text) (usual : Usual config)
    (times : ∀ now ∈ first :: clock, 0 ≤ now ∧ now < 2 ^ 62) :
    Meets processId first clock config conf
      (parse processId first clock last config conf) := by
  have usual' : Usual { config with timestamp := first } := usual.same ⟨rfl, rfl, rfl, rfl, rfl⟩
  have clocked : ∀ now ∈ clock, 0 ≤ now ∧ now < 2 ^ 62 := fun now member =>
    times now (List.mem_cons_of_mem first member)
  unfold parse
  cases parsed : parseLines processId clock { config with timestamp := first } (lines conf) with
  | error r =>
    obtain ⟨c, failure⟩ := r
    by_cases invalid : failure = .invalidArgument
    · subst invalid
      exact parseLines_stopped parsed rfl
    · have immodest : ¬ ∀ option ∈ entries conf, Modest option := fun modest =>
        invalid (parseLines_invalid clocked modest parsed)
      cases failure with
      | invalidArgument => exact absurd rfl invalid
      | overflow => exact ⟨rfl, immodest⟩
      | divisionByZero => exact absurd rfl (parseLines_defined parsed)
  | ok c =>
    obtain ⟨usual'', buffer⟩ := parseLines_ok usual' parsed
    obtain ⟨c', validated, valid, same⟩ := validate_ok usual'' (times first List.mem_cons_self)
    simp only [validated]
    obtain ⟨sample, multiplex, report, samples, buffers⟩ := valid
    exact ⟨⟨sample, multiplex, report, samples, buffers⟩, same.trans buffer⟩

def textOf (texts : List String) : Text :=
  [Char.ofNat 10].intercalate (texts.map String.toList)

/-- Fresh settings, parsed at the start of the epoch. -/
def parseFresh (texts : List String) : Outcome :=
  parse [] 0 [] 0 (.initial [] false) (textOf texts)

theorem fresh_usual : Usual (.initial [] false) :=
  ⟨by decide, by decide, by decide, by decide, by decide⟩

def Outcome.rejectedConfig : Outcome → Option Config
  | .rejected c => some c
  | _ => none

def Outcome.parsedConfig : Outcome → Option Config
  | .parsed c => some c
  | _ => none

theorem Outcome.of_parsedConfig {outcome : Outcome} {c : Config}
    (same : outcome.parsedConfig = some c) : outcome = .parsed c := by
  cases outcome with
  | parsed => exact congrArg Outcome.parsed (Option.some.inj same)
  | rejected => cases same
  | undefined => cases same

theorem Outcome.of_rejectedConfig {outcome : Outcome} {c : Config}
    (same : outcome.rejectedConfig = some c) : outcome = .rejected c := by
  cases outcome with
  | parsed => cases same
  | rejected => exact congrArg Outcome.rejected (Option.some.inj same)
  | undefined => cases same

/-- Settings that are aligned, with a comment and a blank line. -/
def alignedTexts : List String :=
  ["SAMPLE_PERIOD_MSECS=7 # odd", "", "MULTIPLEX_PERIOD_MSECS = 10", "REPORT_PERIOD_SECS=1",
    "ACTIVITIES_MAX_GCU_BUFFER_SIZE_MB=3"]

/-- Settings of which the second is cut short. -/
def cutTexts : List String :=
  ["SAMPLE_PERIOD_MSECS=5", "ACTIVITY_TYPES=cpu_op,?,kernel", "REPORT_PERIOD_SECS=9"]

theorem parseFresh_meets :
    (∃ c, parseFresh alignedTexts = .parsed c ∧ Valid c ∧ c.multiplexPeriod = 14 ∧
      c.activitiesMaxGcuBufferSize = 3 * 1024 * 1024) ∧
    ∃ c, parseFresh cutTexts = .rejected c ∧
      StoppedAt [] 0 [] { Config.initial [] false with timestamp := 0 } (lines (textOf cutTexts)) c ∧
      c.samplePeriod = 5 ∧ c.selectedActivityTypes = {"cpu_op".toList} := by
  -- one evaluation of both texts, which decodes the keys once
  have evaluated : (parseFresh alignedTexts).parsedConfig.map
        (fun c => (c.multiplexPeriod, c.activitiesMaxGcuBufferSize)) = some (14, 3 * 1024 * 1024) ∧
      (parseFresh cutTexts).rejectedConfig.map
        (fun c => (c.samplePeriod, c.selectedActivityTypes)) = some (5, {"cpu_op".toList}) := by
    decide +kernel
  have meets : ∀ texts outcome, parseFresh texts = outcome →
      Meets [] 0 [] (.initial [] false) (textOf texts) outcome := by
    rintro texts _ rfl
    exact parse_meets [] 0 0 [] (.initial [] false) (textOf texts) fresh_usual (by simp)
  constructor
  · obtain ⟨c, isParsed, left⟩ := Option.map_eq_some_iff.mp evaluated.1
    have parsed := Outcome.of_parsedConfig isParsed
    have valid := meets alignedTexts (.parsed c) parsed
    exact ⟨c, parsed, valid.1, (Prod.mk.inj left).1, (Prod.mk.inj left).2⟩
  · obtain ⟨c, isRejected, left⟩ := Option.map_eq_some_iff.mp evaluated.2
    have rejected := Outcome.of_rejectedConfig isRejected
    have stopped := meets cutTexts (.rejected c) rejected
    exact ⟨c, rejected, stopped, (Prod.mk.inj left).1, (Prod.mk.inj left).2⟩

/-- A rejected text has set a period, 2048 megabytes overflow, and a count of samples that is no
`int` turns negative. -/
theorem parse_breaks :
    (parseFresh ["SAMPLE_PERIOD_MSECS=5", "?"]).rejectedConfig.map (·.samplePeriod) = some 5 ∧
      parseFresh ["ACTIVITIES_MAX_GCU_BUFFER_SIZE_MB=2048"] = .undefined .overflow ∧
      parseFresh ["PROFILE_START_TIME=9223372036855"] = .undefined .overflow ∧
      (parseFresh ["SAMPLE_PERIOD_MSECS=1", "MULTIPLEX_PERIOD_MSECS=1",
          "REPORT_PERIOD_SECS=2147484"]).parsedConfig.map (·.samplesPerReport) =
        some (-2147483296) := by
  decide +kernel

end TorchGcu.ProfilerConfig

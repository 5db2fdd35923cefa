import Mathlib.Algebra.Order.Ring.Int
import Mathlib.Data.Finset.Dedup
import Mathlib.Data.Finset.Lattice.Lemmas
import Mathlib.Data.List.DropRight
import Mathlib.Data.Finset.Basic
import TorchGcu.Logic.Search

/-! The options of a profiler configuration: texts are read line by line, and each line sets a
setting. -/
namespace TorchGcu.ProfilerConfig
open TextSearch

abbrev Text := List Char

/-- Why an option is not taken, or why the code has no defined result. -/
inductive Failure where
  | invalidArgument | overflow | divisionByZero
deriving DecidableEq, Repr

/-! ### Texts -/

/-- `kWhitespace`. -/
def isWhitespace (c : Char) : Bool := c == Char.ofNat 9 || c == Char.ofNat 10 || c == ' '

def trim (s : Text) : Text := (s.dropWhile isWhitespace).rdropWhile isWhitespace

/-- `split`, which reads up to the first null character. -/
def split (s : Text) (delim : Char) : List Text := (s.takeWhile (· ≠ Char.ofNat 0)).splitOn delim

def splitAndTrim (s : Text) (delim : Char) : List Text := (split s delim).map trim

def stripComment (s : Text) : Text := s.takeWhile (· ≠ '#')

def toLower (s : Text) : Text := s.map Char.toLower

/-- What `strtoll` skips. -/
def isSpace (c : Char) : Bool := c == ' ' || (9 ≤ c.toNat && c.toNat ≤ 13)

def int64Max : Int := 2 ^ 63 - 1
def int64Min : Int := -2 ^ 63

/-- `strtoll` to the base 10, with what it leaves of the text. -/
def strtoll (s : Text) : Int × Text :=
  let t := s.dropWhile isSpace
  let negative := t.head? == some '-'
  let t := if negative || t.head? == some '+' then t.tail else t
  let digits := t.takeWhile Char.isDigit
  if digits = [] then (0, s)
  else
    let value : Int := digits.foldl (fun value c => 10 * value + (c.toNat - 48 : Nat)) (0 : Nat)
    (if negative then max int64Min (-value) else min int64Max value, t.dropWhile Char.isDigit)

def toIntRange (val : Text) (least most : Int) : Except Failure Int :=
  let (res, rest) := strtoll val
  if val = [] ∨ rest ≠ [] then .error .invalidArgument
  else if res < least ∨ res > most then .error .invalidArgument
  else .ok res

def toInt32 (val : Text) : Except Failure Int := toIntRange val 0 (2 ^ 31 - 1)
def toInt64 (val : Text) : Except Failure Int := toIntRange val 0 (2 ^ 63 - 1)

def boolVals : List Text :=
  ["n", "y", "no", "yes", "f", "t", "false", "true"].map String.toList

def toBool (val : Text) : Except Failure Bool :=
  match boolVals.findIdx? (· == toLower val) with
  | some i => .ok (i % 2 == 1)
  | none => .error .invalidArgument

/-! ### Integers of the machine -/

/-- A result of `int`. -/
def int32 (n : Int) : Except Failure Int :=
  if -2 ^ 31 ≤ n ∧ n < 2 ^ 31 then .ok n else .error .overflow

/-- A result of `int64_t`, as `std::chrono` has it. -/
def int64 (n : Int) : Except Failure Int :=
  if int64Min ≤ n ∧ n ≤ int64Max then .ok n else .error .overflow

def modulo (a b : Int) : Except Failure Int :=
  if b = 0 then .error .divisionByZero else .ok (a.tmod b)

/-! ### Settings -/

/-- The names of `ActivityType`, the default ones first. -/
def defaultActivityTypes : List Text :=
  ["cpu_op", "user_annotation", "GCU_USER_ANNOTATION", "GCU_MEMCPY", "GCU_MEMSET", "kernel",
    "external_correlation", "gcu_runtime", "gcu_driver", "cpu_instant_event", "python_function",
    "overhead", "mtia_runtime", "mtia_ccp_events", "gcu_sync"].map String.toList

def activityTypes : List Text :=
  defaultActivityTypes ++
    ["glow_runtime", "gcu_profiler_range", "hpu_op", "xpu_runtime", "collective_comm",
      "mtia_workloadd", "privateuse1_runtime", "privateuse1_driver"].map String.toList

/-- The fields of `Config`. Durations are in the unit of their type, times in nanoseconds. -/
structure Config where
  verboseLogLevel : Int
  verboseLogModules : List Text
  samplePeriod : Int
  reportPeriod : Int
  samplesPerReport : Int
  eventNames : Finset Text
  metricNames : Finset Text
  eventProfilerOnDemandDuration : Int
  eventProfilerOnDemandTimestamp : Int
  eventProfilerMaxInstancesPerGcu : Int
  eventProfilerHeartbeatMonitorPeriod : Int
  eventLogFile : Text
  eventProfilerDeviceMask : BitVec 8
  multiplexPeriod : Int
  activityProfilerEnabled : Bool
  selectedActivityTypes : Finset Text
  activitiesLogFile : Text
  activitiesLogUrl : Text
  activitiesMaxGcuBufferSize : Int
  activitiesWarmupDuration : Int
  activitiesWarmupIterations : Int
  activitiesGcuSyncWaitEvents : Bool
  enableReportInputShapes : Bool
  enableProfileMemory : Bool
  enableWithStack : Bool
  enableWithFlops : Bool
  enableWithModules : Bool
  activitiesDuration : Int
  activitiesRunIterations : Int
  activitiesOnDemandTimestamp : Int
  profileStartTime : Int
  profileStartIteration : Int
  profileStartIterationRoundUp : Int
  requestTimestamp : Int
  enableSigUsr2 : Bool
  enableIpcFabric : Bool
  onDemandConfigUpdateIntervalSecs : Int
  requestTraceID : Text
  requestGroupTraceID : Text
  timestamp : Int
  source : Text
deriving DecidableEq

/-- `Config::Config`, with the names of the process and whether a daemon is used. -/
def Config.initial (defaultTraceFileName : Text) (useDaemon : Bool) : Config where
  verboseLogLevel := -1
  verboseLogModules := []
  samplePeriod := 1000
  reportPeriod := 1000
  samplesPerReport := 1
  eventNames := ∅
  metricNames := ∅
  eventProfilerOnDemandDuration := 0
  eventProfilerOnDemandTimestamp := 0
  eventProfilerMaxInstancesPerGcu := 1
  eventProfilerHeartbeatMonitorPeriod := 0
  eventLogFile := []
  eventProfilerDeviceMask := 255
  multiplexPeriod := 1000
  activityProfilerEnabled := true
  selectedActivityTypes := ∅
  activitiesLogFile := defaultTraceFileName
  activitiesLogUrl := "file://".toList ++ defaultTraceFileName
  activitiesMaxGcuBufferSize := 128 * 1024 * 1024
  activitiesWarmupDuration := 5
  activitiesWarmupIterations := 0
  activitiesGcuSyncWaitEvents := true
  enableReportInputShapes := false
  enableProfileMemory := false
  enableWithStack := false
  enableWithFlops := false
  enableWithModules := false
  activitiesDuration := 500
  activitiesRunIterations := 0
  activitiesOnDemandTimestamp := 0
  profileStartTime := 0
  profileStartIteration := -1
  profileStartIterationRoundUp := -1
  requestTimestamp := 0
  enableSigUsr2 := false
  enableIpcFabric := useDaemon
  onDemandConfigUpdateIntervalSecs := 5
  requestTraceID := []
  requestGroupTraceID := []
  timestamp := 0
  source := []

/-! ### Options -/

/-- The keys of the options. -/
inductive Key where
  | events | metrics | samplePeriod | multiplexPeriod | reportPeriod | samplesPerReport
  | eventsLogFile | eventsEnabledDevices | onDemandDuration | maxEventProfilersPerGcu
  | heartbeatMonitorPeriod | activitiesDuration | activityTypes | activitiesDurationMsecs
  | activitiesIterations | logVerboseLevel | logVerboseModules | activitiesEnabled
  | activitiesLogFile | activitiesMaxGcuBufferSize | activitiesWarmupDurationSecs
  | activitiesWarmupIterations | activitiesDisplayGcuSyncWaitEvents | requestTraceID
  | requestGroupTraceID | clientInterfaceEnableOpInputsCollection | pythonStackTrace
  | profileReportInputShapes | profileProfileMemory | profileWithStack | profileWithFlops
  | profileWithModules | requestTimestamp | profileStartTime | profileStartIteration
  | profileStartIterationRoundUp | enableSigUsr2 | enableIpcFabric
  | onDemandConfigUpdateIntervalSecs
deriving DecidableEq, Repr

def keys : List (Text × Key) :=
  [("EVENTS", Key.events), ("METRICS", .metrics), ("SAMPLE_PERIOD_MSECS", .samplePeriod),
    ("MULTIPLEX_PERIOD_MSECS", .multiplexPeriod), ("REPORT_PERIOD_SECS", .reportPeriod),
    ("SAMPLES_PER_REPORT", .samplesPerReport), ("EVENTS_LOG_FILE", .eventsLogFile),
    ("EVENTS_ENABLED_DEVICES", .eventsEnabledDevices), ("EVENTS_DURATION_SECS", .onDemandDuration),
    ("MAX_EVENT_PROFILERS_PER_GCU", .maxEventProfilersPerGcu),
    ("EVENTS_HEARTBEAT_MONITOR_PERIOD_SECS", .heartbeatMonitorPeriod),
    ("ACTIVITIES_DURATION_SECS", .activitiesDuration), ("ACTIVITY_TYPES", .activityTypes),
    ("ACTIVITIES_DURATION_MSECS", .activitiesDurationMsecs),
    ("ACTIVITIES_ITERATIONS", .activitiesIterations), ("VERBOSE_LOG_LEVEL", .logVerboseLevel),
    ("VERBOSE_LOG_MODULES", .logVerboseModules), ("ACTIVITIES_ENABLED", .activitiesEnabled),
    ("ACTIVITIES_LOG_FILE", .activitiesLogFile),
    ("ACTIVITIES_MAX_GCU_BUFFER_SIZE_MB", .activitiesMaxGcuBufferSize),
    ("ACTIVITIES_WARMUP_PERIOD_SECS", .activitiesWarmupDurationSecs),
    ("ACTIVITIES_WARMUP_ITERATIONS", .activitiesWarmupIterations),
    ("ACTIVITIES_DISPLAY_GCU_SYNC_WAIT_EVENTS", .activitiesDisplayGcuSyncWaitEvents),
    ("REQUEST_TRACE_ID", .requestTraceID), ("REQUEST_GROUP_TRACE_ID", .requestGroupTraceID),
    ("CLIENT_INTERFACE_ENABLE_OP_INPUTS_COLLECTION", .clientInterfaceEnableOpInputsCollection),
    ("PYTHON_STACK_TRACE", .pythonStackTrace),
    ("PROFILE_REPORT_INPUT_SHAPES", .profileReportInputShapes),
    ("PROFILE_PROFILE_MEMORY", .profileProfileMemory), ("PROFILE_WITH_STACK", .profileWithStack),
    ("PROFILE_WITH_FLOPS", .profileWithFlops), ("PROFILE_WITH_MODULES", .profileWithModules),
    ("REQUEST_TIMESTAMP", .requestTimestamp), ("PROFILE_START_TIME", .profileStartTime),
    ("PROFILE_START_ITERATION", .profileStartIteration),
    ("PROFILE_START_ITERATION_ROUNDUP", .profileStartIterationRoundUp),
    ("ENABLE_SIGUSR2", .enableSigUsr2), ("ENABLE_IPC_FABRIC", .enableIpcFabric),
    ("ON_DEMAND_CONFIG_UPDATE_INTERVAL_SECS", .onDemandConfigUpdateIntervalSecs)].map
      fun (name, key) => (name.toList, key)

/-- An option that was not taken, with the settings as it leaves them. -/
structure Rejected where
  config : Config
  failure : Failure
deriving DecidableEq

/-- A setting is stored once its value is read. -/
def store {α : Type} (config : Config) (value : Except Failure α) (set : α → Config) :
    Except Rejected Config :=
  match value with
  | .ok a => .ok (set a)
  | .error failure => .error ⟨config, failure⟩

/-- `std::string::find` and `replace`. -/
def replaceFirst (pattern replacement text : Text) : Option Text :=
  (findAfter pattern text).map fun after =>
    text.take (text.length - after.length - pattern.length) ++ replacement ++ after

/-- The URL of a log file, which names the process. -/
def logUrl (processId val : Text) : Text :=
  let url := "file://".toList ++ val
  (replaceFirst ".pt.trace.json".toList (['_'] ++ processId ++ ".pt.trace.json".toList) url).getD
    ((replaceFirst ".json".toList (['_'] ++ processId ++ ".json".toList) url).getD url)

def createDeviceMask (val : Text) : Except Failure (BitVec 8) :=
  (splitAndTrim val ',').foldlM
    (fun res d => do return res ||| 1#8 <<< (← toIntRange d 0 7).toNat) 0

/-- The loop of `setActivityTypes`. The types before an unknown one stay inserted. -/
def insertActivityTypes (config : Config) : List Text → Except Rejected Config
  | [] => .ok config
  | activity :: activities =>
    if activity = [] then insertActivityTypes config activities
    else if activity ∈ activityTypes then
      insertActivityTypes
        { config with
          selectedActivityTypes := insert activity config.selectedActivityTypes } activities
    else .error ⟨config, .invalidArgument⟩

def setActivityTypes (config : Config) (activities : List Text) : Except Rejected Config :=
  insertActivityTypes { config with selectedActivityTypes := ∅ } activities

/-- `kMaxRequestAge`. -/
def maxRequestAge : Int := 10 * 10 ^ 9

def handleRequestTimestamp (now ms : Int) : Except Failure Int := do
  let t ← int64 (ms * 10 ^ 6)
  if t > now then throw .invalidArgument
  else
    let age ← int64 (now - t)
    if age > maxRequestAge then throw .invalidArgument else return t

def handleProfileStartTime (now ms : Int) : Except Failure Int :=
  if ms = 0 then return 0
  else do
    let t ← int64 (ms * 10 ^ 6)
    let age ← int64 (now - t)
    if age > maxRequestAge then throw .invalidArgument else return t

/-- `Config::handleOption` of an option that it knows. -/
def handleKey (processId : Text) (now : Int) (c : Config) (key : Key) (val : Text) :
    Except Rejected Config :=
  match key with
  | .events => .ok { c with eventNames := c.eventNames ∪ (splitAndTrim val ',').toFinset }
  | .metrics => .ok { c with metricNames := c.metricNames ∪ (splitAndTrim val ',').toFinset }
  | .samplePeriod => store c (toInt32 val) fun n => { c with samplePeriod := n }
  | .multiplexPeriod => store c (toInt32 val) fun n => { c with multiplexPeriod := n }
  | .reportPeriod => store c (toInt32 val) fun n => { c with reportPeriod := n * 1000 }
  | .samplesPerReport => store c (toInt32 val) fun n => { c with samplesPerReport := n }
  | .eventsLogFile => .ok { c with eventLogFile := val }
  | .eventsEnabledDevices =>
    store c (createDeviceMask val) fun mask => { c with eventProfilerDeviceMask := mask }
  | .onDemandDuration =>
    store c (toInt32 val) fun n =>
      { c with eventProfilerOnDemandDuration := n, eventProfilerOnDemandTimestamp := c.timestamp }
  | .maxEventProfilersPerGcu =>
    store c (toInt32 val) fun n => { c with eventProfilerMaxInstancesPerGcu := n }
  | .heartbeatMonitorPeriod =>
    store c (toInt32 val) fun n => { c with eventProfilerHeartbeatMonitorPeriod := n }
  | .activitiesDuration =>
    store c (toInt32 val) fun n =>
      { c with activitiesDuration := n * 1000, activitiesOnDemandTimestamp := c.timestamp }
  | .activityTypes => setActivityTypes c (splitAndTrim (toLower val) ',')
  | .activitiesDurationMsecs =>
    store c (toInt32 val) fun n =>
      { c with activitiesDuration := n, activitiesOnDemandTimestamp := c.timestamp }
  | .activitiesIterations =>
    store c (toInt32 val) fun n =>
      { c with activitiesRunIterations := n, activitiesOnDemandTimestamp := c.timestamp }
  | .logVerboseLevel => store c (toInt32 val) fun n => { c with verboseLogLevel := n }
  | .logVerboseModules => .ok { c with verboseLogModules := splitAndTrim val ',' }
  | .activitiesEnabled => store c (toBool val) fun b => { c with activityProfilerEnabled := b }
  | .activitiesLogFile =>
    .ok
      { c with
        activitiesLogFile := val
        activitiesLogUrl := logUrl processId val
        activitiesOnDemandTimestamp := c.timestamp }
  | .activitiesMaxGcuBufferSize =>
    store c (do int32 ((← int32 ((← toInt32 val) * 1024)) * 1024)) fun n =>
      { c with activitiesMaxGcuBufferSize := n }
  | .activitiesWarmupDurationSecs =>
    store c (toInt32 val) fun n => { c with activitiesWarmupDuration := n }
  | .activitiesWarmupIterations =>
    store c (toInt32 val) fun n => { c with activitiesWarmupIterations := n }
  | .activitiesDisplayGcuSyncWaitEvents =>
    store c (toBool val) fun b => { c with activitiesGcuSyncWaitEvents := b }
  | .requestTraceID => .ok { c with requestTraceID := val }
  | .requestGroupTraceID => .ok { c with requestGroupTraceID := val }
  | .clientInterfaceEnableOpInputsCollection | .profileReportInputShapes =>
    store c (toBool val) fun b => { c with enableReportInputShapes := b }
  | .pythonStackTrace | .profileWithStack =>
    store c (toBool val) fun b => { c with enableWithStack := b }
  | .profileProfileMemory => store c (toBool val) fun b => { c with enableProfileMemory := b }
  | .profileWithFlops => store c (toBool val) fun b => { c with enableWithFlops := b }
  | .profileWithModules => store c (toBool val) fun b => { c with enableWithModules := b }
  | .requestTimestamp =>
    store c (do handleRequestTimestamp now (← toInt64 val)) fun t => { c with requestTimestamp := t }
  | .profileStartTime =>
    store c (do handleProfileStartTime now (← toInt64 val)) fun t => { c with profileStartTime := t }
  | .profileStartIteration => store c (toInt32 val) fun n => { c with profileStartIteration := n }
  | .profileStartIterationRoundUp =>
    store c (toInt32 val) fun n => { c with profileStartIterationRoundUp := n }
  | .enableSigUsr2 => store c (toBool val) fun b => { c with enableSigUsr2 := b }
  | .enableIpcFabric => store c (toBool val) fun b => { c with enableIpcFabric := b }
  | .onDemandConfigUpdateIntervalSecs =>
    store c (toInt32 val) fun n => { c with onDemandConfigUpdateIntervalSecs := n }

/-- `Config::handleOption`. What it does not know is left alone with a warning. -/
def handleOption (processId : Text) (now : Int) (c : Config) (name val : Text) :
    Except Rejected Config :=
  match keys.lookup name with
  | some key => handleKey processId now c key val
  | none => .ok c

end TorchGcu.ProfilerConfig

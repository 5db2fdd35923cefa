import TorchGcu.CachingAllocator.ConfigParser

/-! How a configuration string becomes the settings of the allocator: its tokens, the options they
make up, and the one string for which a token is read that is not there. -/
namespace TorchGcu.GCUCachingAllocator
open ProgramLogic

/-! ### Tokens -/

def isSeparator (c : Char) : Bool := c = ',' || c = ':' || c = '[' || c = ']'

/-- The token that `buf` makes, none if it is empty. -/
def flush (buf : List Char) : List String :=
  if buf.isEmpty then [] else [String.ofList buf]

/-- The tokens of the characters to come, behind those in `buf`. -/
def lexChars : List Char → List Char → List String
  | [], buf => flush buf
  | c :: env, buf =>
    if isSeparator c then flush buf ++ String.ofList [c] :: lexChars env []
    else lexChars env (if c = ' ' then buf else buf ++ [c])

/-- The tokens of a C string, which ends at its first null character. -/
def lexArgs (env : String) : List String :=
  lexChars (env.toList.takeWhile (· ≠ Char.ofNat 0)) []

/-! ### Settings -/

/-- All settings that a configuration string can change. -/
structure AllocatorSettings extends GCUAllocatorConfig where
  pinnedNumRegisterThreads : Nat := 1
  expandableSegments : Bool := false
  pinnedUseGcuHostRegister : Bool := false
  lastAllocatorSettings : String := ""

abbrev SettingsM := EStateM ConfigError AllocatorSettings

inductive Double where
  | finite (value : ℚ)
  | infinite (negative : Bool)
  | nan

def Double.positive : Double → Bool
  | .finite value => 0 < value
  | .infinite negative => !negative
  | .nan => false

/-- What is stored of a double; the checks let only finite ones through. -/
def Double.value : Double → ℚ
  | .finite value => value
  | .infinite _ | .nan => 0

def Double.belowOne : Double → Bool
  | .finite value => value < 1
  | .infinite negative => negative
  | .nan => false

/-- Why `std::stod` raises. -/
inductive NumberError where
  | invalidArgument
  | outOfRange

def NumberError.raised : NumberError → ConfigError
  | .invalidArgument => .invalidArgument
  | .outOfRange => .outOfRange

/-- What parsing asks of its surroundings. -/
structure ConfigContext where
  stod : String → Except NumberError Double
  /-- `get()->name()`, the allocator chosen when the library was loaded. -/
  allocatorName : String

/-! ### Options with one value -/

/-- `config[i]`. -/
def tokenAt (config : List String) (i : Nat) : SettingsM String :=
  match config[i]? with
  | some token => pure token
  | none => throw .pastEnd

def consumeToken (config : List String) (i : Nat) (c : String) : SettingsM Unit :=
  configCheck (config[i]? = some c) (expected c)

/-- The value at index `i`, which has to be there. -/
def valueAt (config : List String) (i : Nat) (missing : String) : SettingsM String :=
  if i < config.length then tokenAt config i else throw (.torchCheck missing)

/-- A colon and one value, which is stored; the result is the index of the value. -/
def parseValue (config : List String) (i : Nat) (missing : String)
    (store : String → SettingsM Unit) : SettingsM Nat := do
  consumeToken config (i + 1) ":"
  let value ← valueAt config (i + 2) missing
  store value
  return i + 2

def storeMaxSplitSize (value : String) : SettingsM Unit := do
  let val1 ← number (stoi value)
  configCheck (decide (kLargeBuffer / (1024 * 1024) < val1))
    "CachingAllocator option max_split_size_mb too small, must be > 20"
  let val1 := max val1 (kLargeBuffer / (1024 * 1024))
  let val1 := min val1 (sizeMax / (1024 * 1024))
  modify fun s => { s with maxSplitSize := val1 * 1024 * 1024 }

def parseMaxSplitSize (config : List String) (i : Nat) : SettingsM Nat :=
  parseValue config i "Error, expecting max_split_size_mb value" storeMaxSplitSize

def storeThreshold (ctx : ConfigContext) (value : String) : SettingsM Unit :=
  match ctx.stod value with
  | .error error => throw error.raised
  | .ok val1 => do
    configCheck val1.positive "garbage_collect_threshold too small, set it 0.0~1.0"
    configCheck val1.belowOne "garbage_collect_threshold too big, set it 0.0~1.0"
    modify fun s => { s with garbageCollectionThreshold := val1.value }

def parseGarbageCollectionThreshold (ctx : ConfigContext) (config : List String) (i : Nat) :
    SettingsM Nat :=
  parseValue config i "Error, expecting garbage_collection_threshold value" (storeThreshold ctx)

def checkBackend (ctx : ConfigContext) (value : String) : SettingsM Unit := do
  configCheck (value = "native" || value = "topsMallocAsync")
    "Unknown allocator backend, options are native and topsMallocAsync"
  configCheck (value = ctx.allocatorName)
    "Allocator backend parsed at runtime != allocator backend parsed at load time"

/-- The second result is `used_topsMallocAsync`. -/
def parseAllocatorConfig (ctx : ConfigContext) (config : List String) (i : Nat) :
    SettingsM (Nat × Bool) := do
  let last ← parseValue config i "Error parsing backend value" (checkBackend ctx)
  return (last, config[last]? = some "topsMallocAsync")

def flagExpected (name : String) : String := "Expected a single True/False argument for " ++ name

def storeFlag (name : String) (write : Bool → AllocatorSettings → AllocatorSettings)
    (value : String) : SettingsM Unit := do
  configCheck (value = "True" || value = "False") (flagExpected name)
  modify (write (value = "True"))

def parsePinnedUseGcuHostRegister (config : List String) (i : Nat) : SettingsM Nat :=
  parseValue config i "Error, expecting pinned_use_gcu_host_register value"
    (storeFlag "pinned_use_gcu_host_register" fun flag s => { s with pinnedUseGcuHostRegister := flag })

def pinnedMaxRegisterThreads : Nat := 128

def storeThreads (value : String) : SettingsM Unit := do
  let val2 ← number (stoi value)
  configCheck (isPowerOf2 val2) "Number of register threads has to be power of 2 "
  configCheck (val2 ≤ pinnedMaxRegisterThreads)
    "Number of register threads should be less than or equal to 128"
  modify fun s => { s with pinnedNumRegisterThreads := val2 }

def parsePinnedNumRegisterThreads (config : List String) (i : Nat) : SettingsM Nat :=
  parseValue config i "Error, expecting pinned_num_register_threads value" storeThreads

/-! ### All options -/

/-- Which kinds of options a configuration has had. -/
structure UsedOptions where
  topsMallocAsync : Bool := false
  nativeSpecific : Bool := false

/-- An option that only the native allocator reads. -/
def nativeOption (used : UsedOptions) (parse : SettingsM Nat) : SettingsM (Nat × UsedOptions) := do
  let last ← parse
  return (last, { used with nativeSpecific := true })

/-- `parseRoundUpPower2Divisions` on the table of the settings. -/
def parseRoundUp (config : List String) (i : Nat) : SettingsM Nat :=
  zoom (fun s => s.roundupPower2Divisions) (fun table s => { s with roundupPower2Divisions := table })
    (parseRoundUpPower2Divisions config i)

/-- The option with its name at index `i`; the first result is the index of its last token. -/
def parseOption (ctx : ConfigContext) (config : List String) (i : Nat) (used : UsedOptions) :
    SettingsM (Nat × UsedOptions) := do
  let name ← tokenAt config i
  if name = "max_split_size_mb" then
    nativeOption used (parseMaxSplitSize config i)
  else if name = "garbage_collection_threshold" then
    nativeOption used (parseGarbageCollectionThreshold ctx config i)
  else if name = "roundup_power2_divisions" then
    nativeOption used (parseRoundUp config i)
  else if name = "backend" then
    let (last, topsMallocAsync) ← parseAllocatorConfig ctx config i
    return (last, { used with topsMallocAsync })
  else if name = "expandable_segments" then
    nativeOption used <| parseValue config i (flagExpected name)
      (storeFlag name fun flag s => { s with expandableSegments := flag })
  else if name = "release_lock_on_topsmalloc" then
    nativeOption used <| parseValue config i (flagExpected name)
      (storeFlag name fun flag s => { s with releaseLockOnTopsmalloc := flag })
  else if name = "pinned_use_gcu_host_register" then
    nativeOption used (parsePinnedUseGcuHostRegister config i)
  else if name = "pinned_num_register_threads" then
    nativeOption used (parsePinnedNumRegisterThreads config i)
  else throw (.torchCheck ("Unrecognized CachingAllocator option: " ++ name))

/-- The comma behind an option whose last token is at index `i`, unless it is the last option. -/
def consumeSeparator (config : List String) (i : Nat) : SettingsM Nat :=
  if i + 1 < config.length then do
    consumeToken config (i + 1) ","
    return i + 1
  else return i

/-- The loop over the options from index `i` on, cut off after a number of passes: none if it has
not come to its end. -/
def parseOptions (ctx : ConfigContext) (config : List String) :
    Nat → Nat → UsedOptions → SettingsM (Option UsedOptions)
  | 0, i, used => return if i < config.length then none else some used
  | passes + 1, i, used =>
    if i < config.length then do
      let (last, used) ← parseOption ctx config i used
      let last ← consumeSeparator config last
      parseOptions ctx config passes (last + 1) used
    else return some used

def UsedOptions.warning (used : UsedOptions) : Option String :=
  if used.topsMallocAsync && used.nativeSpecific then
    some ("backend:topsMallocAsync ignores max_split_size_mb,"
      ++ "roundup_power2_divisions, and garbage_collect_threshold.")
  else none

/-- What an earlier string has set of these is forgotten. -/
def resetSettings (s : AllocatorSettings) : AllocatorSettings :=
  { s with
    maxSplitSize := sizeMax
    roundupPower2Divisions := List.replicate kRoundUpPowerOfTwoIntervals 0
    garbageCollectionThreshold := 0 }

/-- The result is the warning given, or none if the loop has not come to its end after as many
passes as there are tokens. There is no string when the environment variable is not set. -/
def parseArgs (ctx : ConfigContext) (env : Option String) : SettingsM (Option (Option String)) := do
  modify resetSettings
  match env with
  | none => return some none
  | some env =>
    modify fun s => { s with lastAllocatorSettings := env }
    let config := lexArgs env
    let used ← parseOptions ctx config config.length 0 {}
    return used.map UsedOptions.warning

/-! ### What is accepted -/

def reads (read : Except ConfigError Nat) (check : Nat → Bool) : Bool :=
  match read with
  | .ok value => check value
  | .error _ => false

def intervalAccepted (interval : String) : Bool :=
  interval = ">" || reads (stoul interval) isPowerOf2

/-- An entry `interval:divisions` of a list in brackets. -/
def entryAccepted (interval divisions : String) : Bool :=
  reads (stoi divisions) isPowerOf2 && intervalAccepted interval

/-- The tokens behind an opening bracket, when they end right behind an entry. -/
@[mk_iff] inductive EndsBehindEntry : List String → Prop where
  | last {interval divisions : String} (accepted : entryAccepted interval divisions) :
      EndsBehindEntry [interval, ":", divisions]
  | entry {interval divisions : String} {tokens : List String}
      (accepted : entryAccepted interval divisions) (more : EndsBehindEntry tokens) :
      EndsBehindEntry (interval :: ":" :: divisions :: "," :: tokens)

/-- The tokens behind an opening bracket, and those behind the bracket that closes it. -/
@[mk_iff] inductive ClosedList : List String → List String → Prop where
  | closed {rest : List String} : ClosedList ("]" :: rest) rest
  | last {interval divisions : String} {rest : List String}
      (accepted : entryAccepted interval divisions) :
      ClosedList (interval :: ":" :: divisions :: "]" :: rest) rest
  | entry {interval divisions : String} {tokens rest : List String}
      (accepted : entryAccepted interval divisions) (more : ClosedList tokens rest) :
      ClosedList (interval :: ":" :: divisions :: "," :: tokens) rest

def thresholdAccepted (ctx : ConfigContext) (value : String) : Bool :=
  match ctx.stod value with
  | .ok val1 => val1.positive && val1.belowOne
  | .error _ => false

/-- The values that an option takes, apart from a list in brackets. -/
def valueAccepted (ctx : ConfigContext) (name value : String) : Bool :=
  if name = "max_split_size_mb" then
    reads (stoi value) fun val1 => kLargeBuffer / (1024 * 1024) < val1
  else if name = "garbage_collection_threshold" then thresholdAccepted ctx value
  else if name = "roundup_power2_divisions" then reads (stoi value) isPowerOf2
  else if name = "backend" then
    (value = "native" || value = "topsMallocAsync") && value = ctx.allocatorName
  else if name = "pinned_num_register_threads" then
    reads (stoi value) fun val2 => isPowerOf2 val2 && val2 ≤ pinnedMaxRegisterThreads
  else (name = "expandable_segments" || name = "release_lock_on_topsmalloc" ||
      name = "pinned_use_gcu_host_register") && (value = "True" || value = "False")

/-- Tokens that begin with an option that is accepted, and those behind it. -/
@[mk_iff] inductive AcceptedOption (ctx : ConfigContext) : List String → List String → Prop where
  | value {name value : String} {rest : List String} (accepted : valueAccepted ctx name value) :
      AcceptedOption ctx (name :: ":" :: value :: rest) rest
  | list {tokens rest : List String} (closed : ClosedList tokens rest) :
      AcceptedOption ctx ("roundup_power2_divisions" :: ":" :: "[" :: tokens) rest

/-- A list in brackets that ends right behind an entry. -/
def OpenList (tokens : List String) : Prop :=
  ∃ list, tokens = "roundup_power2_divisions" :: ":" :: "[" :: list ∧ EndsBehindEntry list

/-- Options that are accepted, and then a list in brackets that ends right behind an entry. -/
@[mk_iff] inductive EndsInList (ctx : ConfigContext) : List String → Prop where
  | list {tokens : List String} (opened : OpenList tokens) : EndsInList ctx tokens
  | option {tokens rest : List String} (accepted : AcceptedOption ctx tokens ("," :: rest))
      (ends : EndsInList ctx rest) : EndsInList ctx tokens

/-! ### Lists in brackets -/

/-- An error that the source raises itself. -/
def ConfigError.Raised (error : ConfigError) : Prop := error ≠ .pastEnd ∧ error ≠ .outsideTable

theorem entryAccepted_ne {interval divisions : String} (accepted : entryAccepted interval divisions) :
    interval ≠ "]" := by
  rintro rfl
  simp [entryAccepted, intervalAccepted, show stoul "]" = .error .invalidArgument by rfl, reads]
    at accepted

@[simp] theorem torchCheck_raised (message : String) : (ConfigError.torchCheck message).Raised :=
  ⟨by simp, by simp⟩

@[simp] theorem invalidArgument_raised : ConfigError.invalidArgument.Raised := ⟨by decide, by decide⟩

@[simp] theorem outOfRange_raised : ConfigError.outOfRange.Raised := ⟨by decide, by decide⟩

theorem scanNumber_raises {text : String} {error : ConfigError}
    (read : scanNumber text = .error error) : error.Raised := by
  simp only [scanNumber] at read
  split at read
  · cases read
    exact invalidArgument_raised
  · cases read

theorem stoi_raises {text : String} {error : ConfigError} (read : stoi text = .error error) :
    error.Raised := by
  cases scanned : scanNumber text with
  | error e =>
    simp only [stoi, scanned, bind, Except.bind, Except.error.injEq] at read
    exact read ▸ scanNumber_raises scanned
  | ok signed =>
    simp only [stoi, scanned, bind, Except.bind] at read
    split at read <;> split at read <;> cases read <;> exact outOfRange_raised

theorem stoul_raises {text : String} {error : ConfigError} (read : stoul text = .error error) :
    error.Raised := by
  cases scanned : scanNumber text with
  | error e =>
    simp only [stoul, scanned, bind, Except.bind, Except.error.injEq] at read
    exact read ▸ scanNumber_raises scanned
  | ok signed =>
    simp only [stoul, scanned, bind, Except.bind] at read
    split at read
    · cases read
      exact outOfRange_raised
    · split at read <;> cases read

/-- A number that is read and checked: either it is accepted, or the source raises. -/
theorem wp_reads {σ : Type} {read : Except ConfigError Nat} {check : Nat → Bool} {message : String}
    {next : Nat → EStateM ConfigError σ β} {normal : β → σ → Prop} {raised : ConfigError → σ → Prop}
    {s : σ} (errors : ∀ e, read = .error e → e.Raised)
    (onAccepted : reads read check = true → ∀ n, read = .ok n → check n = true →
      wp (next n) normal raised s)
    (onRefused : reads read check = false → ∀ e : ConfigError, e.Raised → raised e s) :
    wp (do
      let n ← number read
      configCheck (check n) message
      next n) normal raised s := by
  simp only [wp_bind, wp_number, wp_configCheck]
  refine ⟨fun n found => ⟨fun passed => ?_, fun failed => ?_⟩, fun e found => ?_⟩
  · exact onAccepted (by simp only [reads, found, passed]) n found passed
  · exact onRefused (by simp only [reads, found, failed]) _ (torchCheck_raised _)
  · exact onRefused (by simp only [reads, found]) e (errors e found)

theorem intervalIndex_lt {interval size : Nat} (positive : 0 < size) :
    intervalIndex interval size < size := by
  unfold intervalIndex
  omega

/-- One entry: it is stored, with an index in the table, or the source raises. -/
theorem wp_roundUpEntry {interval : String} {divisions lastIndex : Nat} {firstValue : Bool}
    {table : List Nat} {normal : Nat × Bool → List Nat → Prop} {raised : ConfigError → List Nat → Prop}
    (valid : ValidTable table) (power : ∃ m ≤ 30, divisions = 2 ^ m)
    (inside : lastIndex < kRoundUpPowerOfTwoIntervals)
    (onAccepted : intervalAccepted interval = true → ∀ last t,
      last.1 < kRoundUpPowerOfTwoIntervals → ValidTable t → normal last t)
    (onRefused : intervalAccepted interval = false → ∀ e t, e.Raised → raised e t) :
    wp (roundUpEntry interval divisions lastIndex firstValue) normal raised table := by
  unfold roundUpEntry
  rw [wp_ite]
  refine ⟨fun rest => ?_, fun named => ?_⟩
  · have accepted : intervalAccepted interval = true := by simp [intervalAccepted, rest]
    simp only [wp_bind, wp_get, wp_fillTable, wp_pure]
    have range : lastIndex ≤ table.length ∧ table.length ≤ table.length := by
      rw [valid.length]
      exact ⟨inside.le, le_rfl⟩
    exact ⟨fun _ => onAccepted accepted _ _ inside (valid.fill power _ _), fun off => absurd range off⟩
  · have same : intervalAccepted interval = reads (stoul interval) isPowerOf2 := by
      simp [intervalAccepted, named]
    refine wp_reads (fun e => stoul_raises) (fun accepted n _ _ => ?_)
      fun refused e raises => onRefused (same.trans refused) e _ raises
    have bound : intervalIndex n table.length < table.length :=
      intervalIndex_lt (by rw [valid.length]; decide)
    simp only [wp_bind, wp_get, wp_ite, wp_fillTable, wp_modify, wp_pure]
    generalize intervalIndex n table.length = index at bound ⊢
    have ends (t : List Nat) (after : ValidTable t) :
        normal (index, false) (if index < t.length then t.set index divisions else t) := by
      refine onAccepted (same.trans accepted) _ _ (valid.length ▸ bound) ?_
      split
      · exact after.set power index
      · exact after
    refine ⟨fun _ => ⟨fun _ => ends _ (valid.fill power _ _), fun off => ?_⟩, fun _ => ends _ valid⟩
    exact absurd ⟨Nat.zero_le index, bound.le⟩ off

/-- How a list in brackets is left, when its first token has index `i` and the last one `last`. -/
structure ListReturned (tokens : List String) (i last : Nat) : Prop where
  onward : i ≤ last
  complete : ¬ EndsBehindEntry tokens
  closed : ∀ rest, ClosedList tokens rest ↔
    last < i + tokens.length ∧ rest = tokens.drop (last + 1 - i)

/-- A token behind the last one is read exactly where the tokens end right behind an entry. -/
structure ListRaised (tokens : List String) (error : ConfigError) : Prop where
  table : error ≠ .outsideTable
  pastEnd : error = .pastEnd ↔ EndsBehindEntry tokens
  closed : ∀ rest, ¬ ClosedList tokens rest

section Shapes
variable {a b c : String} {tokens rest : List String}

theorem endsBehindEntry_entry : EndsBehindEntry (a :: b :: c :: tokens) ↔
    b = ":" ∧ entryAccepted a c = true ∧
      (tokens = [] ∨ ∃ more, tokens = "," :: more ∧ EndsBehindEntry more) := by
  rw [endsBehindEntry_iff]
  constructor
  · rintro (⟨_, _, accepted, same⟩ | ⟨_, _, more, accepted, ends, same⟩) <;>
      simp only [List.cons.injEq] at same <;> obtain ⟨rfl, rfl, rfl, rfl⟩ := same
    · exact ⟨rfl, accepted, .inl rfl⟩
    · exact ⟨rfl, accepted, .inr ⟨more, rfl, ends⟩⟩
  · rintro ⟨rfl, accepted, rfl | ⟨more, rfl, ends⟩⟩
    · exact .inl ⟨a, c, accepted, rfl⟩
    · exact .inr ⟨a, c, more, accepted, ends, rfl⟩

theorem closedList_entry (open_ : a ≠ "]") : ClosedList (a :: b :: c :: tokens) rest ↔
    b = ":" ∧ entryAccepted a c = true ∧
      (tokens = "]" :: rest ∨ ∃ more, tokens = "," :: more ∧ ClosedList more rest) := by
  rw [closedList_iff]
  constructor
  · rintro (same | ⟨_, _, accepted, same⟩ | ⟨_, _, more, accepted, closed, same⟩) <;>
      simp only [List.cons.injEq] at same
    · exact absurd same.1 open_
    · obtain ⟨rfl, rfl, rfl, rfl⟩ := same
      exact ⟨rfl, accepted, .inl rfl⟩
    · obtain ⟨rfl, rfl, rfl, rfl⟩ := same
      exact ⟨rfl, accepted, .inr ⟨more, rfl, closed⟩⟩
  · rintro ⟨rfl, accepted, rfl | ⟨more, rfl, closed⟩⟩
    · exact .inr (.inl ⟨a, c, accepted, rfl⟩)
    · exact .inr (.inr ⟨a, c, more, accepted, closed, rfl⟩)

theorem EndsBehindEntry.entry_le (ends : EndsBehindEntry tokens) : 3 ≤ tokens.length := by
  cases ends <;> simp

theorem ClosedList.entry_le (closed : ClosedList tokens rest) (open_ : tokens.head? ≠ some "]") :
    3 ≤ tokens.length := by
  cases closed
  · exact absurd rfl open_
  · simp
  · simp

theorem not_endsBehindEntry_bracket : ¬ EndsBehindEntry ("]" :: tokens) := by
  rw [endsBehindEntry_iff]
  rintro (⟨_, _, accepted, same⟩ | ⟨_, _, _, accepted, _, same⟩) <;>
    exact entryAccepted_ne accepted (List.cons.inj same).1.symm

theorem closedList_bracket : ClosedList ("]" :: tokens) rest ↔ rest = tokens := by
  rw [closedList_iff]
  constructor
  · rintro (same | ⟨_, _, accepted, same⟩ | ⟨_, _, _, accepted, _, same⟩)
    · exact (List.cons.inj same).2.symm
    · exact absurd (List.cons.inj same).1.symm (entryAccepted_ne accepted)
    · exact absurd (List.cons.inj same).1.symm (entryAccepted_ne accepted)
  · rintro rfl
    exact .inl rfl

theorem ListReturned.bracket {i : Nat} : ListReturned ("]" :: tokens) i i :=
  ⟨le_rfl, not_endsBehindEntry_bracket, fun rest => closedList_bracket.trans (by simp)⟩

theorem ListReturned.last {i : Nat} (open_ : a ≠ "]") (accepted : entryAccepted a c = true) :
    ListReturned (a :: ":" :: c :: "]" :: tokens) i (i + 3) := by
  refine ⟨by omega, by simp [endsBehindEntry_entry], fun rest => ?_⟩
  rw [closedList_entry open_, show i + 3 + 1 - i = 4 by omega]
  simp [accepted, eq_comm]

/-- Behind a complete entry and a comma the list goes on. -/
theorem ListReturned.entry {i last : Nat} (open_ : a ≠ "]") (accepted : entryAccepted a c = true)
    (more : ListReturned tokens (i + 4) last) :
    ListReturned (a :: ":" :: c :: "," :: tokens) i last := by
  refine ⟨by have := more.onward; omega, ?_, fun rest => ?_⟩
  · simpa [endsBehindEntry_entry, accepted] using more.complete
  · have onward := more.onward
    have drops : (a :: ":" :: c :: "," :: tokens).drop (last + 1 - i) =
        tokens.drop (last + 1 - (i + 4)) := by
      rw [show last + 1 - i = (last + 1 - (i + 4)) + 4 by omega]
      rfl
    rw [drops, closedList_entry open_]
    simp only [accepted, true_and, List.cons.injEq, String.reduceEq, false_and, false_or,
      exists_eq_left', more.closed, List.length_cons]
    refine and_congr_left fun _ => ?_
    omega

theorem ListRaised.entry {error : ConfigError} (open_ : a ≠ "]")
    (accepted : entryAccepted a c = true) (more : ListRaised tokens error) :
    ListRaised (a :: ":" :: c :: "," :: tokens) error := by
  refine ⟨more.table, ?_, fun rest => ?_⟩
  · simp [endsBehindEntry_entry, accepted, more.pastEnd]
  · simpa [closedList_entry open_, accepted] using more.closed rest

/-- An error of the source, at a place where the tokens are neither complete nor cut off. -/
theorem ListRaised.of_raised {error : ConfigError} (raises : error.Raised)
    (complete : ¬ EndsBehindEntry tokens) (closed : ∀ rest, ¬ ClosedList tokens rest) :
    ListRaised tokens error :=
  ⟨raises.2, iff_of_false raises.1 complete, closed⟩

/-- Too few tokens for an entry. -/
theorem ListRaised.of_short {error : ConfigError} (raises : error.Raised)
    (open_ : tokens.head? ≠ some "]") (short : tokens.length < 3) : ListRaised tokens error :=
  .of_raised raises (fun ends => by have := ends.entry_le; omega)
    fun _ closed => by have := closed.entry_le open_; omega

/-- An entry that is not accepted. -/
theorem ListRaised.of_entry {error : ConfigError} (raises : error.Raised) (open_ : a ≠ "]")
    (refused : ¬ (b = ":" ∧ entryAccepted a c = true)) :
    ListRaised (a :: b :: c :: tokens) error := by
  refine .of_raised raises ?_ fun rest => ?_
  · rw [endsBehindEntry_entry]
    exact fun entry => refused ⟨entry.1, entry.2.1⟩
  · rw [closedList_entry open_]
    exact fun entry => refused ⟨entry.1, entry.2.1⟩

end Shapes

/-- The divisions of an entry are read and checked, and then the entry is stored. -/
theorem wp_entry {interval divisions : String} {lastIndex : Nat} {firstValue : Bool}
    {table : List Nat} {next : Nat × Bool → ConfigM Nat} {normal : Nat → List Nat → Prop}
    {raised : ConfigError → List Nat → Prop} (valid : ValidTable table)
    (inside : lastIndex < kRoundUpPowerOfTwoIntervals)
    (onAccepted : entryAccepted interval divisions = true → ∀ last t,
      last.1 < kRoundUpPowerOfTwoIntervals → ValidTable t → wp (next last) normal raised t)
    (onRefused : entryAccepted interval divisions = false → ∀ e t, e.Raised → raised e t) :
    wp (do
      let val2 ← number (stoi divisions)
      divisionsCheck val2
      let last ← roundUpEntry interval val2 lastIndex firstValue
      next last) normal raised table := by
  refine wp_reads (fun e => stoi_raises) (fun read n found power => ?_) fun refused e raises => ?_
  · rw [wp_bind]
    refine wp_roundUpEntry valid (divisions_of_stoi found power) inside (fun named => ?_)
      fun refused => onRefused ?_
    · exact onAccepted (by rw [entryAccepted, read, named]; rfl)
    · rw [entryAccepted, refused, Bool.and_false]
  · exact onRefused (by rw [entryAccepted, refused, Bool.false_and]) e table raises

theorem roundUpEntries_ends : ∀ (tokens : List String) (i lastIndex : Nat) (firstValue : Bool)
    {table : List Nat}, ValidTable table → lastIndex < kRoundUpPowerOfTwoIntervals →
    wp (roundUpEntries tokens i lastIndex firstValue) (fun last _ => ListReturned tokens i last)
      (fun e _ => ListRaised tokens e) table
  | [], i, _, _, _, _, _ => by
    refine ⟨le_rfl, fun ends => ?_, fun rest => ?_⟩
    · exact absurd ends.entry_le (by decide)
    · refine iff_of_false (fun closed => ?_) fun inside => absurd inside.1 (by simp)
      exact absurd (closed.entry_le (by simp)) (by decide)
  | [val1], i, _, _, _, _, _ => by
    refine (wp_ite _ _ _).mpr ⟨fun bracket => bracket ▸ .bracket, fun open_ => ?_⟩
    exact .of_short (torchCheck_raised _) (by simpa using open_) (by simp)
  | [val1, colon], i, _, _, _, _, _ => by
    refine (wp_ite _ _ _).mpr ⟨fun bracket => bracket ▸ .bracket, fun open_ => ?_⟩
    have short {e : ConfigError} (raises : e.Raised) : ListRaised [val1, colon] e :=
      .of_short raises (by simpa using open_) (by simp)
    simp only [wp_bind, wp_configCheck, wp_throw]
    exact ⟨fun _ => short (torchCheck_raised _), fun _ => short (torchCheck_raised _)⟩
  | [val1, colon, val2], i, _, _, _, valid, inside => by
    refine (wp_ite _ _ _).mpr ⟨fun bracket => bracket ▸ .bracket, fun open_ => ?_⟩
    rw [wp_bind, wp_configCheck]
    refine ⟨fun separated => ?_, fun other => ?_⟩
    · have colon : colon = ":" := of_decide_eq_true separated
      refine wp_entry valid inside (fun accepted _ _ _ _ => ?_) fun refused _ _ raises => ?_
      · refine ⟨by simp, iff_of_true rfl ?_, fun rest => ?_⟩
        · exact endsBehindEntry_entry.mpr ⟨colon, accepted, .inl rfl⟩
        · simp [closedList_entry open_]
      · exact .of_entry raises open_ (by simp [refused])
    · exact .of_entry (torchCheck_raised _) open_ fun entry => of_decide_eq_false other entry.1
  | val1 :: colon :: val2 :: next :: tokens, i, _, _, _, valid, inside => by
    refine (wp_ite _ _ _).mpr ⟨fun bracket => bracket ▸ .bracket, fun open_ => ?_⟩
    rw [wp_bind, wp_configCheck]
    refine ⟨fun separated => ?_, fun other => ?_⟩
    · obtain rfl : colon = ":" := of_decide_eq_true separated
      refine wp_entry valid inside (fun accepted last t below after => ?_)
        fun refused _ _ raises => .of_entry raises open_ (by simp [refused])
      rw [wp_ite]
      refine ⟨fun bracket => bracket ▸ .last open_ accepted, fun more => ?_⟩
      rw [wp_bind, wp_configCheck]
      refine ⟨fun comma => ?_, fun other => ?_⟩
      · obtain rfl : next = "," := of_decide_eq_true comma
        exact wp_mono (roundUpEntries_ends tokens (i + 4) _ _ after below)
          (fun _ _ => .entry open_ accepted) fun _ _ => .entry open_ accepted
      · have other : next ≠ "," := of_decide_eq_false other
        refine .of_raised (torchCheck_raised _) ?_ fun rest => ?_
        · simp [endsBehindEntry_entry, other]
        · simp [closedList_entry open_, more, other]
    · exact .of_entry (torchCheck_raised _) open_ fun entry => of_decide_eq_false other entry.1

/-! ### One option -/

section Options
variable {ctx : ConfigContext} {config : List String} {i : Nat} {name : String}

theorem drop_eq_cons {token : String} {rest : List String} :
    config.drop i = token :: rest ↔ config[i]? = some token ∧ config.drop (i + 1) = rest := by
  constructor
  · intro split
    have here := congrArg (fun tokens => tokens[0]?) split
    have behind := congrArg (List.drop 1) split
    simp only [List.getElem?_drop, Nat.add_zero, List.getElem?_cons_zero, List.drop_drop,
      List.drop_succ_cons, List.drop_zero] at here behind
    exact ⟨here, behind⟩
  · rintro ⟨here, rfl⟩
    obtain ⟨inside, rfl⟩ := List.getElem?_eq_some_iff.mp here
    exact List.drop_eq_getElem_cons inside

/-- An option in the middle of the tokens. -/
theorem acceptedOption_at {rest : List String} (here : config[i]? = some name) :
    AcceptedOption ctx (config.drop i) rest ↔
      config[i + 1]? = some ":" ∧ ∃ value, config[i + 2]? = some value ∧
        (valueAccepted ctx name value = true ∧ config.drop (i + 3) = rest ∨
          name = "roundup_power2_divisions" ∧ value = "[" ∧
            ClosedList (config.drop (i + 3)) rest) := by
  rw [acceptedOption_iff]
  simp only [drop_eq_cons, here, Option.some.injEq, Nat.add_assoc, Nat.reduceAdd]
  constructor
  · rintro (⟨_, value, accepted, rfl, colon, read, rest⟩ | ⟨_, closed, rfl, colon, read, rfl⟩)
    · exact ⟨colon, value, read, .inl ⟨accepted, rest⟩⟩
    · exact ⟨colon, _, read, .inr ⟨rfl, rfl, closed⟩⟩
  · rintro ⟨colon, value, read, ⟨accepted, rest⟩ | ⟨rfl, rfl, closed⟩⟩
    · exact .inl ⟨name, value, accepted, rfl, colon, read, rest⟩
    · exact .inr ⟨_, closed, rfl, colon, read, rfl⟩

theorem openList_at (here : config[i]? = some name) : OpenList (config.drop i) ↔
    name = "roundup_power2_divisions" ∧ config[i + 1]? = some ":" ∧ config[i + 2]? = some "[" ∧
      EndsBehindEntry (config.drop (i + 3)) := by
  simp only [OpenList, drop_eq_cons, here, Option.some.injEq, Nat.add_assoc, Nat.reduceAdd]
  constructor
  · rintro ⟨_, ⟨rfl, colon, bracket, rfl⟩, ends⟩
    exact ⟨rfl, colon, bracket, ends⟩
  · rintro ⟨rfl, colon, bracket, ends⟩
    exact ⟨_, ⟨rfl, colon, bracket, rfl⟩, ends⟩

/-- How an option is left that has its name at index `i` and its last token at index `last`. -/
structure OptionReturned (ctx : ConfigContext) (config : List String) (i last : Nat) : Prop where
  onward : i < last
  complete : ¬ OpenList (config.drop i)
  accepted : ∀ rest, AcceptedOption ctx (config.drop i) rest ↔
    last < config.length ∧ config.drop (last + 1) = rest

structure OptionRaised (ctx : ConfigContext) (config : List String) (i : Nat) (error : ConfigError) :
    Prop where
  table : error ≠ .outsideTable
  pastEnd : error = .pastEnd ↔ OpenList (config.drop i)
  accepted : ∀ rest, ¬ AcceptedOption ctx (config.drop i) rest

/-- An error of the source at an option with no list in brackets. -/
theorem OptionRaised.of_raised {error : ConfigError} (here : config[i]? = some name)
    (raises : error.Raised) (unlisted : name = "roundup_power2_divisions" →
      config[i + 1]? = some ":" → config[i + 2]? ≠ some "[")
    (refused : config[i + 1]? = some ":" → ∀ value, config[i + 2]? = some value →
      valueAccepted ctx name value = false) : OptionRaised ctx config i error := by
  refine ⟨raises.2, iff_of_false raises.1 ?_, fun rest => ?_⟩
  · rw [openList_at here]
    exact fun opened => unlisted opened.1 opened.2.1 opened.2.2.1
  · rw [acceptedOption_at here]
    rintro ⟨colon, value, read, ⟨accepted, _⟩ | ⟨named, rfl, _⟩⟩
    · exact absurd accepted (by rw [refused colon value read]; decide)
    · exact unlisted named colon read

/-- An option with one value. -/
theorem OptionReturned.of_value {value : String} (here : config[i]? = some name)
    (unlisted : name = "roundup_power2_divisions" → value ≠ "[")
    (colon : config[i + 1]? = some ":") (read : config[i + 2]? = some value)
    (accepted : valueAccepted ctx name value = true) : OptionReturned ctx config i (i + 2) := by
  refine ⟨by omega, ?_, fun rest => ?_⟩
  · rw [openList_at here, read]
    exact fun opened => unlisted opened.1 (Option.some.inj opened.2.2.1)
  · have inside := (List.getElem?_eq_some_iff.mp read).1
    rw [acceptedOption_at here]
    simp only [colon, read, inside, Option.some.injEq, exists_eq_left', accepted, true_and]
    constructor
    · rintro (same | ⟨named, bracket, _⟩)
      · exact same
      · exact absurd bracket (unlisted named)
    · exact .inl

/-- What parsing leaves: settings that the allocator can work with. -/
structure ValidSettings (s : AllocatorSettings) : Prop where
  table : Accepted s.roundupPower2Divisions
  split : s.toGCUAllocatorConfig.Parsed
  threshold : 0 ≤ s.garbageCollectionThreshold ∧ s.garbageCollectionThreshold < 1

theorem resetSettings_valid (s : AllocatorSettings) : ValidSettings (resetSettings s) :=
  ⟨.default, .inl rfl, le_rfl, by norm_num [resetSettings]⟩

/-- A value is stored exactly if the option takes it. -/
def Stores (ctx : ConfigContext) (name : String) (store : String → SettingsM Unit) : Prop :=
  ∀ value s, ValidSettings s →
    wp (store value) (fun _ t => valueAccepted ctx name value = true ∧ ValidSettings t)
      (fun e _ => valueAccepted ctx name value = false ∧ e.Raised) s

variable {s : AllocatorSettings} {missing : String} {store : String → SettingsM Unit}

theorem wp_valueAt {normal : String → AllocatorSettings → Prop}
    {raised : ConfigError → AllocatorSettings → Prop}
    (found : ∀ value, config[i]? = some value → normal value s)
    (absent : config[i]? = none → raised (.torchCheck missing) s) :
    wp (valueAt config i missing) normal raised s := by
  unfold valueAt
  split
  · rename_i inside
    have read : config[i]? = some config[i] := List.getElem?_eq_getElem inside
    simpa only [tokenAt, read, wp_pure] using found _ read
  · rename_i outside
    exact absent (List.getElem?_eq_none (by omega))

theorem parseValue_ends (stores : Stores ctx name store) (here : config[i]? = some name)
    (unlisted : name ≠ "roundup_power2_divisions") (valid : ValidSettings s) :
    wp (parseValue config i missing store)
      (fun last t => OptionReturned ctx config i last ∧ ValidSettings t)
      (fun e _ => OptionRaised ctx config i e) s := by
  have refuse {e : ConfigError} (raises : e.Raised) (refused : config[i + 1]? = some ":" →
      ∀ value, config[i + 2]? = some value → valueAccepted ctx name value = false) :
      OptionRaised ctx config i e :=
    .of_raised here raises (fun named => absurd named unlisted) refused
  unfold parseValue consumeToken
  rw [wp_bind, wp_configCheck]
  refine ⟨fun separated => ?_, fun other => ?_⟩
  · have colon : config[i + 1]? = some ":" := of_decide_eq_true separated
    rw [wp_bind]
    refine wp_valueAt (fun value read => ?_) fun absent => ?_
    · rw [wp_bind]
      refine wp_mono (stores value s valid) (fun _ t stored => ?_) fun e _ refused => ?_
      · exact ⟨.of_value here (fun named => absurd named unlisted) colon read stored.1, stored.2⟩
      · refine refuse refused.2 fun _ value' read' => ?_
        rw [read, Option.some.injEq] at read'
        exact read' ▸ refused.1
    · exact refuse (torchCheck_raised _) fun _ _ read => by simp [absent] at read
  · exact refuse (torchCheck_raised _) fun colon => absurd colon (of_decide_eq_false other)

theorem storeMaxSplitSize_stores : Stores ctx "max_split_size_mb" storeMaxSplitSize := by
  intro value s valid
  refine wp_reads (fun e => stoi_raises) (fun accepted n _ large => ?_) fun refused e raises => ?_
  · have large : kLargeBuffer / (1024 * 1024) < n := of_decide_eq_true large
    rw [wp_modify]
    refine ⟨accepted, valid.table, .inr ⟨_, ?_, min_le_right _ _, rfl⟩, valid.threshold⟩
    exact lt_min (lt_max_of_lt_left large) (by decide)
  · exact ⟨refused, raises⟩

theorem storeThreshold_stores :
    Stores ctx "garbage_collection_threshold" (storeThreshold ctx) := by
  intro value s valid
  have same : valueAccepted ctx "garbage_collection_threshold" value = thresholdAccepted ctx value := by
    simp [valueAccepted]
  rw [same]
  unfold storeThreshold thresholdAccepted
  cases ctx.stod value with
  | error error =>
    rw [wp_throw]
    cases error
    · exact ⟨rfl, invalidArgument_raised⟩
    · exact ⟨rfl, outOfRange_raised⟩
  | ok val1 =>
    simp only [wp_bind, wp_configCheck, wp_modify]
    refine ⟨fun positive => ⟨fun below => ?_, fun large => ?_⟩, fun small => ?_⟩
    · refine ⟨by rw [positive, below]; rfl, valid.table, valid.split, ?_⟩
      cases val1 with
      | finite value => exact ⟨(of_decide_eq_true positive).le, of_decide_eq_true below⟩
      | infinite negative => exact ⟨le_rfl, by norm_num [Double.value]⟩
      | nan => exact ⟨le_rfl, by norm_num [Double.value]⟩
    · exact ⟨by rw [large, Bool.and_false], torchCheck_raised _⟩
    · exact ⟨by rw [small, Bool.false_and], torchCheck_raised _⟩

theorem checkBackend_stores : Stores ctx "backend" (checkBackend ctx) := by
  intro value s valid
  have same : valueAccepted ctx "backend" value =
      ((value = "native" || value = "topsMallocAsync") && value = ctx.allocatorName) := by
    simp [valueAccepted]
  rw [same]
  simp only [checkBackend, wp_bind, wp_configCheck]
  refine ⟨fun known => ⟨fun loaded => ?_, fun other => ?_⟩, fun unknown => ?_⟩
  · exact ⟨by rw [known, loaded]; rfl, valid⟩
  · exact ⟨by rw [other, Bool.and_false], torchCheck_raised _⟩
  · exact ⟨by rw [unknown, Bool.false_and], torchCheck_raised _⟩

theorem storeFlag_stores {write : Bool → AllocatorSettings → AllocatorSettings}
    (flag : name = "expandable_segments" ∨ name = "release_lock_on_topsmalloc" ∨
      name = "pinned_use_gcu_host_register")
    (keeps : ∀ flag s, ValidSettings s → ValidSettings (write flag s)) :
    Stores ctx name (storeFlag name write) := by
  intro value s valid
  have same : valueAccepted ctx name value = (value = "True" || value = "False") := by
    rcases flag with rfl | rfl | rfl <;> simp [valueAccepted]
  rw [same]
  simp only [storeFlag, wp_bind, wp_configCheck, wp_modify]
  exact ⟨fun known => ⟨known, keeps _ _ valid⟩, fun unknown => ⟨unknown, torchCheck_raised _⟩⟩

theorem storeThreads_stores : Stores ctx "pinned_num_register_threads" storeThreads := by
  intro value s valid
  have same : valueAccepted ctx "pinned_num_register_threads" value =
      reads (stoi value) fun val2 => isPowerOf2 val2 && val2 ≤ pinnedMaxRegisterThreads := by
    simp [valueAccepted]
  rw [same]
  simp only [storeThreads, wp_bind, wp_number, wp_configCheck, wp_modify]
  refine ⟨fun n read => ⟨fun power => ⟨fun few => ?_, fun many => ?_⟩, fun odd => ?_⟩, fun e read => ?_⟩
  · exact ⟨by rw [read, reads, power, few]; rfl, valid.table, valid.split, valid.threshold⟩
  · exact ⟨by rw [read, reads, many, Bool.and_false], torchCheck_raised _⟩
  · exact ⟨by rw [read, reads, odd, Bool.false_and], torchCheck_raised _⟩
  · exact ⟨by rw [read, reads], stoi_raises read⟩

theorem valueAccepted_bracket : valueAccepted ctx "roundup_power2_divisions" "[" = false := by
  simp [valueAccepted, show stoi "[" = .error .invalidArgument by rfl, reads]

/-- A list in brackets as an option: its tokens begin three behind the name. -/
theorem OptionReturned.of_list {last : Nat} {tokens : List String}
    (here : config[i]? = some "roundup_power2_divisions") (colon : config[i + 1]? = some ":")
    (bracket : config.drop (i + 2) = "[" :: tokens) (list : ListReturned tokens (i + 3) last) :
    OptionReturned ctx config i last := by
  obtain ⟨read, behind⟩ := drop_eq_cons.mp bracket
  have onward := list.onward
  have inside := (List.getElem?_eq_some_iff.mp read).1
  have total : config.length = i + 3 + tokens.length := by
    rw [← behind, List.length_drop]
    omega
  have rest_eq : tokens.drop (last + 1 - (i + 3)) = config.drop (last + 1) := by
    rw [← behind, List.drop_drop]
    congr 1
    omega
  refine ⟨by omega, ?_, fun rest => ?_⟩
  · rw [openList_at here, behind]
    exact fun opened => list.complete opened.2.2.2
  · rw [acceptedOption_at here, behind, total, ← rest_eq]
    simp only [colon, read, Option.some.injEq, exists_eq_left', valueAccepted_bracket,
      Bool.false_eq_true, false_and, false_or, true_and, list.closed]
    exact and_congr_right fun _ => eq_comm

theorem OptionRaised.of_list {error : ConfigError} {tokens : List String}
    (here : config[i]? = some "roundup_power2_divisions") (colon : config[i + 1]? = some ":")
    (bracket : config.drop (i + 2) = "[" :: tokens) (list : ListRaised tokens error) :
    OptionRaised ctx config i error := by
  obtain ⟨read, behind⟩ := drop_eq_cons.mp bracket
  refine ⟨list.table, ?_, fun rest => ?_⟩
  · simp [openList_at here, behind, colon, read, list.pastEnd]
  · rw [acceptedOption_at here, behind]
    simp [read, valueAccepted_bracket, list.closed]

theorem parseRoundUpPower2Divisions_ends {table : List Nat}
    (here : config[i]? = some "roundup_power2_divisions") (valid : ValidTable table) :
    wp (parseRoundUpPower2Divisions config i) (fun last _ => OptionReturned ctx config i last)
      (fun e _ => OptionRaised ctx config i e) table := by
  unfold parseRoundUpPower2Divisions
  rw [wp_bind, wp_configCheck]
  refine ⟨fun separated => ?_, fun other => ?_⟩
  · have colon : config[i + 1]? = some ":" := of_decide_eq_true separated
    cases split : config.drop (i + 2) with
    | nil =>
      have absent : config[i + 2]? = none :=
        List.getElem?_eq_none (List.drop_eq_nil_iff.mp split)
      exact .of_raised here (torchCheck_raised _) (fun _ _ => by simp [absent])
        fun _ value read => by simp [absent] at read
    | cons token tokens =>
      have read := (drop_eq_cons.mp split).1
      rw [wp_ite]
      refine ⟨fun bracket => ?_, fun single => ?_⟩
      · subst bracket
        exact wp_mono (roundUpEntries_ends tokens (i + 3) 0 true valid (by decide))
          (fun _ _ => .of_list here colon split) fun _ _ => .of_list here colon split
      · have same : valueAccepted ctx "roundup_power2_divisions" token =
            reads (stoi token) isPowerOf2 := by simp [valueAccepted]
        refine wp_reads (fun e => stoi_raises) (fun accepted n _ _ => ?_) fun refused e raises => ?_
        · simp only [wp_bind, wp_get, wp_fillTable, wp_pure]
          refine ⟨fun _ => ?_, fun off => absurd ⟨Nat.zero_le _, le_rfl⟩ off⟩
          exact .of_value here (fun _ => single) colon read (same.trans accepted)
        · refine .of_raised here raises (fun _ _ => by simpa [read] using single)
            fun _ value read' => ?_
          rw [read, Option.some.injEq] at read'
          exact read' ▸ same.trans refused
  · have other : config[i + 1]? ≠ some ":" := of_decide_eq_false other
    exact .of_raised here (torchCheck_raised _) (fun _ colon => absurd colon other)
      fun colon => absurd colon other

theorem parseRoundUp_ends (here : config[i]? = some "roundup_power2_divisions")
    (valid : ValidSettings s) :
    wp (parseRoundUp config i) (fun last t => OptionReturned ctx config i last ∧ ValidSettings t)
      (fun e _ => OptionRaised ctx config i e) s := by
  have stores : wp (parseRoundUpPower2Divisions config i) (fun _ table => Accepted table)
      (fun _ _ => True) s.roundupPower2Divisions :=
    wp_of_runs (fun _ _ ran => .parsed valid.table ran) fun _ _ _ => trivial
  rw [parseRoundUp, wp_zoom]
  refine wp_mono (wp_and (parseRoundUpPower2Divisions_ends here valid.table.valid) stores)
    (fun _ table after => ?_) fun _ _ after => after.1
  exact ⟨after.1, after.2, valid.split, valid.threshold⟩

/-- Each option either ends at its last token, or raises, behind the tokens only where they end in
a list in brackets. -/
theorem parseOption_ends {used : UsedOptions} (here : config[i]? = some name)
    (valid : ValidSettings s) :
    wp (parseOption ctx config i used)
      (fun last t => OptionReturned ctx config i last.1 ∧ ValidSettings t)
      (fun e _ => OptionRaised ctx config i e) s := by
  simp only [parseOption, tokenAt, here, nativeOption, pure_bind, wp_ite, wp_bind, wp_pure, wp_throw]
  refine ⟨?_, fun noSplit => ⟨?_, fun noThreshold => ⟨?_, fun noRoundUp => ⟨?_, fun noBackend =>
    ⟨?_, fun noSegments => ⟨?_, fun noRelease => ⟨?_, fun noRegister => ⟨?_, fun noThreads =>
      ?_⟩⟩⟩⟩⟩⟩⟩⟩
  · rintro rfl
    exact parseValue_ends storeMaxSplitSize_stores here (by decide) valid
  · rintro rfl
    exact parseValue_ends storeThreshold_stores here (by decide) valid
  · rintro rfl
    exact parseRoundUp_ends here valid
  · rintro rfl
    simp only [parseAllocatorConfig, wp_bind, wp_pure]
    exact parseValue_ends checkBackend_stores here (by decide) valid
  · rintro rfl
    refine parseValue_ends (storeFlag_stores (.inl rfl) fun _ _ before => ?_) here (by decide) valid
    exact ⟨before.table, before.split, before.threshold⟩
  · rintro rfl
    refine parseValue_ends (storeFlag_stores (.inr (.inl rfl)) fun _ _ before => ?_) here (by decide)
      valid
    exact ⟨before.table, before.split, before.threshold⟩
  · rintro rfl
    refine parseValue_ends (storeFlag_stores (.inr (.inr rfl)) fun _ _ before => ?_) here (by decide)
      valid
    exact ⟨before.table, before.split, before.threshold⟩
  · rintro rfl
    exact parseValue_ends storeThreads_stores here (by decide) valid
  · refine .of_raised here (torchCheck_raised _) (fun named => absurd named noRoundUp) ?_
    intro _ value _
    simp [valueAccepted, noSplit, noThreshold, noRoundUp, noBackend, noThreads, noSegments, noRelease,
      noRegister]

/-! ### All options -/

theorem not_endsInList_nil : ¬ EndsInList ctx [] := by
  rw [endsInList_iff]
  rintro (⟨_, same, _⟩ | ⟨_, accepted, _⟩)
  · simp at same
  · simp [acceptedOption_iff] at accepted

theorem OptionReturned.endsInList_iff {last : Nat} (returned : OptionReturned ctx config i last) :
    EndsInList ctx (config.drop i) ↔
      config[last + 1]? = some "," ∧ EndsInList ctx (config.drop (last + 2)) := by
  rw [GCUCachingAllocator.endsInList_iff]
  simp only [returned.complete, returned.accepted, drop_eq_cons, false_or]
  constructor
  · rintro ⟨_, ⟨_, comma, rfl⟩, ends⟩
    exact ⟨comma, ends⟩
  · rintro ⟨comma, ends⟩
    have inside := (List.getElem?_eq_some_iff.mp comma).1
    exact ⟨_, ⟨by omega, comma, rfl⟩, ends⟩

theorem OptionRaised.endsInList_iff {error : ConfigError} (raised : OptionRaised ctx config i error) :
    EndsInList ctx (config.drop i) ↔ OpenList (config.drop i) := by
  rw [GCUCachingAllocator.endsInList_iff]
  simp only [raised.accepted, false_and, exists_false, or_false]

/-- The comma behind an option, or the end of the tokens. -/
theorem wp_consumeSeparator {last : Nat} {normal : Nat → AllocatorSettings → Prop}
    {raised : ConfigError → AllocatorSettings → Prop}
    (comma : config[last + 1]? = some "," → normal (last + 1) s)
    (ended : config.length ≤ last + 1 → normal last s)
    (other : config[last + 1]? ≠ some "," → raised (.torchCheck (expected ",")) s) :
    wp (consumeSeparator config last) normal raised s := by
  unfold consumeSeparator consumeToken
  simp only [wp_ite, wp_bind, wp_configCheck, wp_pure, decide_eq_true_eq, decide_eq_false_iff_not]
  exact ⟨fun _ => ⟨comma, other⟩, fun outside => ended (Nat.not_lt.mp outside)⟩

theorem parseOptions_ends (passes : Nat) {used : UsedOptions} (enough : config.length ≤ i + passes)
    (valid : ValidSettings s) :
    wp (parseOptions ctx config passes i used)
      (fun ended t => ended.isSome ∧ ValidSettings t ∧ ¬ EndsInList ctx (config.drop i))
      (fun e _ => e ≠ .outsideTable ∧ (e = .pastEnd ↔ EndsInList ctx (config.drop i))) s := by
  induction passes generalizing i used s with
  | zero =>
    have ended : ¬ i < config.length := by omega
    simp only [parseOptions, ended, if_false, wp_pure, Option.isSome_some, true_and]
    rw [List.drop_eq_nil_of_le (by omega)]
    exact ⟨valid, not_endsInList_nil⟩
  | succ passes more =>
    rw [parseOptions, wp_ite]
    refine ⟨fun inside => ?_, fun ended => ?_⟩
    · have here : config[i]? = some config[i] := List.getElem?_eq_getElem inside
      rw [wp_bind]
      refine wp_mono (parseOption_ends here valid) (fun last t after => ?_) fun e t raised => ?_
      · obtain ⟨returned, valid⟩ := after
        have onward := returned.onward
        rw [wp_bind]
        refine wp_consumeSeparator (fun comma => ?_) (fun ended => ?_) fun other => ?_
        · have same := returned.endsInList_iff.trans (and_iff_right comma)
          rw [same]
          exact more (by omega) valid
        · have behind : ¬ EndsInList ctx (config.drop i) := by
            rw [returned.endsInList_iff, List.getElem?_eq_none ended]
            simp
          refine wp_mono (@more (last.1 + 1) _ _ (by omega) valid) (fun _ t after => ?_)
            fun e t after => ?_
          · exact ⟨after.1, after.2.1, behind⟩
          · rw [List.drop_eq_nil_of_le ended] at after
            exact ⟨after.1, after.2.trans (iff_of_false not_endsInList_nil behind)⟩
        · refine ⟨by simp, iff_of_false (by simp) ?_⟩
          rw [returned.endsInList_iff]
          exact fun ends => other ends.1
      · exact ⟨raised.table, raised.pastEnd.trans raised.endsInList_iff.symm⟩
    · rw [List.drop_eq_nil_of_le (by omega)]
      exact ⟨rfl, valid, not_endsInList_nil⟩

/-- Parsing comes to its end, reads a token behind the last one exactly where the tokens end in a
list in brackets, and leaves valid settings if it returns. -/
theorem parseArgs_ends (ctx : ConfigContext) (env : Option String) (s : AllocatorSettings) :
    wp (parseArgs ctx env)
      (fun ended t => ended.isSome ∧ ValidSettings t ∧
        ∀ text, env = some text → ¬ EndsInList ctx (lexArgs text))
      (fun e _ => e ≠ .outsideTable ∧
        (e = .pastEnd ↔ ∃ text, env = some text ∧ EndsInList ctx (lexArgs text))) s := by
  unfold parseArgs
  rw [wp_bind, wp_modify]
  cases env with
  | none => exact ⟨rfl, resetSettings_valid s, by simp⟩
  | some env =>
    have reset := resetSettings_valid s
    simp only [wp_bind, wp_modify, wp_pure, Option.isSome_map, Option.some.injEq, forall_eq',
      exists_eq_left']
    exact @parseOptions_ends ctx (lexArgs env) 0 _ (lexArgs env).length {} (Nat.zero_add _).ge
      ⟨reset.table, reset.split, reset.threshold⟩

end Options

/-- What becomes of a configuration string: parsing ends, by itself or by an error of the source,
every token it reads and every entry of the table it touches is there, and on return the entries
are none or powers of two and the split size is the default or more than a large buffer. -/
def ParsesSafely (ctx : ConfigContext) (env : Option String) (s : AllocatorSettings) : Prop :=
  wp (parseArgs ctx env)
    (fun ended t => ended.isSome ∧
      t.roundupPower2Divisions.length = kRoundUpPowerOfTwoIntervals ∧
      (∀ divisions ∈ t.roundupPower2Divisions, divisions = 0 ∨ ∃ m, divisions = 2 ^ m) ∧
      (t.maxSplitSize = sizeMax ∨ kLargeBuffer < t.maxSplitSize))
    (fun e _ => e ≠ .pastEnd ∧ e ≠ .outsideTable) s

theorem ValidSettings.splitSize {s : AllocatorSettings} (valid : ValidSettings s) :
    s.maxSplitSize = sizeMax ∨ kLargeBuffer < s.maxSplitSize := by
  refine valid.split.imp id ?_
  rintro ⟨mb, large, -, size⟩
  rw [size]
  unfold kLargeBuffer at large ⊢
  omega

/-- The lookahead behind the last entry finds no token. -/
theorem not_safe_of_endsInList {ctx : ConfigContext} {env : String} {s : AllocatorSettings}
    (ends : EndsInList ctx (lexArgs env)) : ¬ ParsesSafely ctx (some env) s := by
  intro safe
  refine wp_false (wp_mono (wp_and safe (parseArgs_ends ctx env s)) (fun _ _ after => ?_)
    fun e _ after => ?_)
  · exact after.2.2.2 env rfl ends
  · exact after.1.1 (after.2.2.mpr ⟨env, rfl, ends⟩)

theorem parseArgs_safe_iff (ctx : ConfigContext) (env : Option String) (s : AllocatorSettings) :
    ParsesSafely ctx env s ↔ ∀ text, env = some text → ¬ EndsInList ctx (lexArgs text) := by
  constructor
  · rintro safe text rfl ends
    exact not_safe_of_endsInList ends safe
  · intro complete
    refine wp_mono (parseArgs_ends ctx env s) (fun _ t after => ?_) fun e _ after => ?_
    · have table := after.2.1.table.valid
      refine ⟨after.1, table.length, fun divisions inside => ?_, after.2.1.splitSize⟩
      exact (table.entries divisions inside).imp id fun ⟨m, _, power⟩ => ⟨m, power⟩
    · refine ⟨fun pastEnd => ?_, after.1⟩
      obtain ⟨text, given, ends⟩ := after.2.mp pastEnd
      exact complete text given ends

/-- A library loaded with the native allocator, where no text is a double. -/
def nativeContext : ConfigContext where
  stod _ := .error .invalidArgument
  allocatorName := "native"

theorem lexArgs_unclosed : lexArgs "roundup_power2_divisions:[256:1" =
    ["roundup_power2_divisions", ":", "[", "256", ":", "1"] := by
  decide +kernel

theorem unclosed_list_read_past_end :
    ¬ ∀ env : String, ParsesSafely nativeContext (some env) {} := by
  have ends : EndsInList nativeContext (lexArgs "roundup_power2_divisions:[256:1") := by
    rw [lexArgs_unclosed]
    exact .list ⟨_, rfl, .last (by decide +kernel)⟩
  exact not_forall_of_exists_not ⟨_, not_safe_of_endsInList ends⟩

end TorchGcu.GCUCachingAllocator

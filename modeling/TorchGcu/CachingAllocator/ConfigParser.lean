import TorchGcu.CachingAllocator.Config
import TorchGcu.Logic.Wp

/-! How the option `roundup_power2_divisions` is read, from a list of tokens into the table of
divisions. -/
namespace TorchGcu.GCUCachingAllocator
open ProgramLogic

/-- What parsing raises. The last two are no exceptions of the source: they mark a token read behind
the last one, and an entry of the table that is not there. -/
inductive ConfigError where
  | torchCheck (message : String)
  | invalidArgument
  | outOfRange
  | pastEnd
  | outsideTable
deriving DecidableEq, Repr

/-- A parser acts on `m_roundup_power2_divisions`. -/
abbrev ConfigM := EStateM ConfigError (List Nat)

/-! ### Numbers -/

def isSpace (c : Char) : Bool := c = ' ' || (9 ≤ c.toNat && c.toNat ≤ 13)

/-- The sign of a number, true for minus, and what comes after it. -/
def splitSign : List Char → Bool × List Char
  | '-' :: rest => (true, rest)
  | '+' :: rest => (false, rest)
  | rest => (false, rest)

/-- The sign and the digits with which a text begins after white space; what follows is ignored. -/
def scanNumber (text : String) : Except ConfigError (Bool × Nat) :=
  let (negative, rest) := splitSign (text.toList.dropWhile isSpace)
  let digits := rest.takeWhile Char.isDigit
  if digits.isEmpty then .error .invalidArgument
  else .ok (negative, digits.foldl (fun value c => 10 * value + (c.toNat - 48)) 0)

/-- `std::stoi`, converted to a `size_t`. -/
def stoi (text : String) : Except ConfigError Nat := do
  let (negative, value) ← scanNumber text
  if negative then
    if value ≤ 2 ^ 31 then .ok ((2 ^ 64 - value) % 2 ^ 64) else .error .outOfRange
  else if value < 2 ^ 31 then .ok value
  else .error .outOfRange

/-- `std::stoul`. -/
def stoul (text : String) : Except ConfigError Nat := do
  let (negative, value) ← scanNumber text
  if 2 ^ 64 ≤ value then .error .outOfRange
  else if negative then .ok ((2 ^ 64 - value) % 2 ^ 64)
  else .ok value

/-! ### The option -/

def configCheck {σ : Type} (condition : Bool) (message : String) : EStateM ConfigError σ Unit :=
  if condition then pure () else throw (.torchCheck message)

def number {σ : Type} (value : Except ConfigError Nat) : EStateM ConfigError σ Nat :=
  match value with
  | .ok value => pure value
  | .error error => throw error

def expected (c : String) : String :=
  "Error parsing CachingAllocator settings, expected " ++ c

def divisionsCheck (divisions : Nat) : ConfigM Unit :=
  configCheck (isPowerOf2 divisions) "For roundups, the divisions has to be power of 2 "

/-- `std::fill` of the entries with an index in a range. -/
def fill (first last value : Nat) (table : List Nat) : List Nat :=
  table.mapIdx fun i old => if first ≤ i ∧ i < last then value else old

/-- `std::fill` on the table, which has to hold the range. -/
def fillTable (first last value : Nat) : ConfigM Unit := do
  let table ← get
  if first ≤ last ∧ last ≤ table.length then set (fill first last value table)
  else throw .outsideTable

/-- The index of an interval, which is at most the last one of the table. -/
def intervalIndex (interval size : Nat) : Nat := min (max 0 (Nat.log2 interval)) (size - 1)

/-- What one entry of the option does; the result is `last_index` and `first_value`. -/
def roundUpEntry (val1 : String) (val2 lastIndex : Nat) (firstValue : Bool) :
    ConfigM (Nat × Bool) := do
  if val1 = ">" then
    fillTable lastIndex (← get).length val2
    return (lastIndex, firstValue)
  else
    let val1Long ← number (stoul val1)
    configCheck (isPowerOf2 val1Long) "For roundups, the intervals have to be power of 2 "
    let index := intervalIndex val1Long (← get).length
    if firstValue then fillTable 0 index val2
    modify fun table => if index < table.length then table.set index val2 else table
    return (index, false)

/-- The loop over the entries in brackets, up to the closing one: the tokens from index `i` on. -/
def roundUpEntries : List String → Nat → Nat → Bool → ConfigM Nat
  | [], i, _, _ => return i
  | val1 :: tokens, i, lastIndex, firstValue => do
    if val1 = "]" then return i
    match tokens with
    | [] => throw (.torchCheck (expected ":"))
    | colon :: tokens =>
      configCheck (colon = ":") (expected ":")
      match tokens with
      | [] => throw (.torchCheck "Error parsing roundup_power2_divisions value")
      | val2 :: tokens =>
        let val2 ← number (stoi val2)
        divisionsCheck val2
        let (lastIndex, firstValue) ← roundUpEntry val1 val2 lastIndex firstValue
        match tokens with
        | [] => throw .pastEnd
        | next :: tokens =>
          if next = "]" then return i + 3
          configCheck (next = ",") (expected ",")
          roundUpEntries tokens (i + 4) lastIndex firstValue

/-- `parseRoundUpPower2Divisions`; the result is the index of the last token that was read. -/
def parseRoundUpPower2Divisions (config : List String) (i : Nat) : ConfigM Nat := do
  configCheck (config[i + 1]? = some ":") (expected ":")
  match config.drop (i + 2) with
  | [] => throw (.torchCheck "Error, expecting roundup_power2_divisions value")
  | token :: tokens =>
    if token = "[" then roundUpEntries tokens (i + 3) 0 true
    else
      -- Keep this for backwards compatibility
      let val1 ← number (stoi token)
      divisionsCheck val1
      fillTable 0 (← get).length val1
      return i + 2

/-- The tables that a configuration can leave: the default, and what the option makes of one. -/
inductive Accepted : List Nat → Prop where
  | default : Accepted (List.replicate kRoundUpPowerOfTwoIntervals 0)
  | parsed {table table' : List Nat} {config : List String} {i last : Nat} (before : Accepted table)
      (ran : (parseRoundUpPower2Divisions config i).run table = .ok last table') : Accepted table'

/-! ### What the table holds -/

/-- There is one entry for each interval, none or a power of two that is an `int`. -/
structure ValidTable (table : List Nat) : Prop where
  length : table.length = kRoundUpPowerOfTwoIntervals
  entries : ∀ divisions ∈ table, divisions = 0 ∨ ∃ m ≤ 30, divisions = 2 ^ m

variable {table : List Nat} {value : Nat} {normal : Nat → List Nat → Prop}
  {raised : ConfigError → List Nat → Prop}

theorem wp_number {σ : Type} {normal : Nat → σ → Prop} {raised : ConfigError → σ → Prop} {s : σ}
    (read : Except ConfigError Nat) : wp (number read) normal raised s ↔
    (∀ n, read = .ok n → normal n s) ∧ ∀ error, read = .error error → raised error s := by
  cases read <;> simp [number]

theorem wp_configCheck {σ : Type} {normal : Unit → σ → Prop} {raised : ConfigError → σ → Prop}
    {s : σ} (condition : Bool) (message : String) :
    wp (configCheck condition message) normal raised s ↔
      (condition = true → normal () s) ∧
        (condition = false → raised (.torchCheck message) s) := by
  cases condition <;> simp [configCheck]

theorem wp_fillTable {normal : Unit → List Nat → Prop} (first last : Nat) :
    wp (fillTable first last value) normal raised table ↔
      (first ≤ last ∧ last ≤ table.length → normal () (fill first last value table)) ∧
        (¬ (first ≤ last ∧ last ≤ table.length) → raised .outsideTable table) := by
  simp only [fillTable, wp_bind, wp_get, wp_ite, wp_set, wp_throw]

/-- An `int` as a 64-bit word. -/
theorem stoi_range {text : String} (read : stoi text = .ok value) :
    value < 2 ^ 31 ∨ 2 ^ 64 - 2 ^ 31 ≤ value ∧ value < 2 ^ 64 := by
  simp only [stoi, bind, Except.bind] at read
  split at read
  · cases read
  · split at read
    · split at read
      · cases read
        omega
      · cases read
    · split at read
      · cases read
        omega
      · cases read

theorem eq_two_pow_of_isPowerOf2 (power : isPowerOf2 value = true) : ∃ m, value = 2 ^ m := by
  simp only [isPowerOf2, Bool.and_eq_true, decide_eq_true_eq, beq_iff_eq] at power
  exact (Nat.and_sub_one_eq_zero_iff_isPowerOfTwo (by omega)).mp power.2

/-- Only positive numbers pass the check. -/
theorem divisions_of_stoi {text : String} (read : stoi text = .ok value)
    (power : isPowerOf2 value = true) : ∃ m ≤ 30, value = 2 ^ m := by
  obtain ⟨m, rfl⟩ := eq_two_pow_of_isPowerOf2 power
  refine ⟨m, ?_, rfl⟩
  rcases stoi_range read with small | ⟨large, word⟩
  · exact Nat.lt_succ_iff.mp ((Nat.pow_lt_pow_iff_right (by decide)).mp small)
  · have below : m < 64 := (Nat.pow_lt_pow_iff_right (by decide)).mp word
    have half : 2 ^ m ≤ 2 ^ 63 := Nat.pow_le_pow_right (by decide) (by omega)
    omega

theorem ValidTable.fill (valid : ValidTable table) (power : ∃ m ≤ 30, value = 2 ^ m)
    (first last : Nat) : ValidTable (fill first last value table) := by
  refine ⟨by simp [GCUCachingAllocator.fill, valid.length], fun divisions member => ?_⟩
  obtain ⟨i, inside, rfl⟩ := List.mem_mapIdx.mp member
  split
  · exact .inr power
  · exact valid.entries _ (List.getElem_mem inside)

theorem ValidTable.set (valid : ValidTable table) (power : ∃ m ≤ 30, value = 2 ^ m) (i : Nat) :
    ValidTable (table.set i value) := by
  refine ⟨by simp [valid.length], fun divisions member => ?_⟩
  rcases List.mem_or_eq_of_mem_set member with old | rfl
  · exact valid.entries _ old
  · exact .inr power

theorem number_preserves {σ : Type} {P : σ → Prop} (read : Except ConfigError Nat) :
    Preserves P (number read) := fun _ holds => (wp_number read).mpr ⟨fun _ _ => holds, fun _ _ => holds⟩

theorem configCheck_preserves {σ : Type} {P : σ → Prop} (condition : Bool) (message : String) :
    Preserves P (configCheck condition message) := fun _ holds =>
  (wp_configCheck condition message).mpr ⟨fun _ => holds, fun _ => holds⟩

theorem fillTable_valid (power : ∃ m ≤ 30, value = 2 ^ m) (first last : Nat) :
    Preserves ValidTable (fillTable first last value) := fun _ valid =>
  (wp_fillTable first last).mpr ⟨fun _ => valid.fill power _ _, fun _ => valid⟩

theorem roundUpEntry_valid (val1 : String) (power : ∃ m ≤ 30, value = 2 ^ m) (lastIndex : Nat)
    (firstValue : Bool) : Preserves ValidTable (roundUpEntry val1 value lastIndex firstValue) := by
  refine .ite (.bind .get fun _ => .bind (fillTable_valid power _ _) fun _ => .pure _) ?_
  refine .bind (number_preserves _) fun _ => .bind (configCheck_preserves _ _) fun _ => ?_
  refine .bind .get fun intervals => ?_
  have store (index : Nat) : Preserves ValidTable (modify fun table =>
      if index < table.length then table.set index value else table : ConfigM Unit) := by
    intro table valid
    rw [wp_modify]
    split
    · exact valid.set power index
    · exact valid
  exact .ite (.bind (fillTable_valid power _ _) fun _ => .bind (store _) fun _ => .pure _)
    (.bind (store _) fun _ => .pure _)

/-- Divisions that are read and pass the check are a power of two in what follows. -/
theorem read_divisions {P : List Nat → Prop} (text : String) {next : Nat → ConfigM Nat}
    (rest : ∀ divisions, (∃ m ≤ 30, divisions = 2 ^ m) → Preserves P (next divisions)) :
    Preserves P (do
      let divisions ← number (stoi text)
      divisionsCheck divisions
      next divisions) := by
  intro table holds
  simp only [wp_bind, wp_number, divisionsCheck, wp_configCheck]
  refine ⟨fun divisions read => ⟨fun power => ?_, fun _ => holds⟩, fun _ _ => holds⟩
  exact rest divisions (divisions_of_stoi read power) table holds

/-- However the loop ends, it has put powers of two into the table. -/
theorem roundUpEntries_valid : ∀ (tokens : List String) (i lastIndex : Nat) (firstValue : Bool),
    Preserves ValidTable (roundUpEntries tokens i lastIndex firstValue)
  | [], _, _, _ => .pure _
  | [_], _, _, _ => .ite (.pure _) (.throw _)
  | [_, _], _, _, _ => .ite (.pure _) (.bind (configCheck_preserves _ _) fun _ => .throw _)
  | [val1, _, val2], _, lastIndex, firstValue => by
    refine .ite (.pure _) (.bind (configCheck_preserves _ _) fun _ => ?_)
    exact read_divisions val2 fun _ power =>
      .bind (roundUpEntry_valid val1 power lastIndex firstValue) fun _ => .throw _
  | val1 :: _ :: val2 :: _ :: tokens, i, lastIndex, firstValue => by
    refine .ite (.pure _) (.bind (configCheck_preserves _ _) fun _ => ?_)
    refine read_divisions val2 fun _ power =>
      .bind (roundUpEntry_valid val1 power lastIndex firstValue) fun last => ?_
    refine .ite (.pure _) (.bind (configCheck_preserves _ _) fun _ => ?_)
    exact roundUpEntries_valid tokens _ _ _

theorem parseRoundUpPower2Divisions_valid (config : List String) (i : Nat) :
    Preserves ValidTable (parseRoundUpPower2Divisions config i) := by
  refine .bind (configCheck_preserves _ _) fun _ => ?_
  split
  · exact .throw _
  · refine .ite (roundUpEntries_valid _ _ _ _) ?_
    exact read_divisions _ fun _ power =>
      .bind .get fun _ => .bind (fillTable_valid power _ _) fun _ => .pure _

theorem Accepted.valid (accepted : Accepted table) : ValidTable table := by
  induction accepted with
  | default => exact ⟨List.length_replicate, fun _ member => .inl (List.eq_of_mem_replicate member)⟩
  | parsed _ ran valid => exact wp_ok (parseRoundUpPower2Divisions_valid _ _ _ valid) ran

/-- Every size has divisions from the table. -/
theorem ValidTable.divisions {cfg : GCUAllocatorConfig} (valid : ValidTable cfg.roundupPower2Divisions)
    (size : Nat) : cfg.roundupPower2DivisionsOf size = 0 ∨
      ∃ m ≤ 30, cfg.roundupPower2DivisionsOf size = 2 ^ m := by
  unfold GCUAllocatorConfig.roundupPower2DivisionsOf
  simp only [List.getD_eq_getElem?_getD]
  generalize Int.toNat _ = index
  cases found : cfg.roundupPower2Divisions[index]? with
  | none => exact .inl rfl
  | some divisions => exact valid.entries _ (List.mem_of_getElem? found)

-- One value up to 256, another one from 512 on.
example : (match (parseRoundUpPower2Divisions ["roundup_power2_divisions", ":", "[", "256", ":", "1",
    ",", ">", ":", "8", "]"] 0).run (List.replicate 16 0) with
  | .ok last table => some (last, table)
  | .error _ _ => none) = some (10, [1, 1, 1, 1, 1, 1, 1, 1, 8, 8, 8, 8, 8, 8, 8, 8]) := by decide

end TorchGcu.GCUCachingAllocator

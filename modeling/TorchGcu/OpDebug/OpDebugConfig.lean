import Mathlib.Data.Finset.Basic
import TorchGcu.Logic.Search

/-! The debug configuration of operators, read from one text. Every parser looks for its key in the
whole text and takes what follows, up to the next space. -/
namespace TorchGcu.OpDebugConfig
open TextSearch

abbrev Text := List Char

/-! ### The parsers -/

structure OpSelection where
  selectAll : Bool := false
  included : Finset Text := ∅
  excluded : Finset Text := ∅
deriving DecidableEq

/-- The text up to the delimiter. -/
def upToSpace (text : Text) : Text := text.takeWhile (· ≠ ' ')

/-- The value behind the first occurrence of a key. -/
def valueOf (str key : Text) : Option Text := (findAfter key str).map upToSpace

def insert (opSets : OpSelection) (val : Text) : OpSelection :=
  if val = "all".toList ∨ val = "all_ops".toList then { opSets with selectAll := true }
  else if val.head? = some '-' then { opSets with excluded := Insert.insert val.tail opSets.excluded }
  else { opSets with included := Insert.insert val opSets.included }

/-- The loop of `parserOperators` over the entries between commas; every round shortens the value. -/
def insertAll : Nat → Text → OpSelection → OpSelection
  | 0, _, opSets => opSets
  | fuel + 1, val, opSets =>
    if val = [] then opSets
    else
      match val.dropWhile (· ≠ ',') with
      | [] => insert opSets val
      | _ :: rest =>
        let op := val.takeWhile (· ≠ ',')
        insertAll fuel rest (if op = [] then opSets else insert opSets op)

def parserOperators (str key : Text) (opSets : OpSelection) : OpSelection :=
  match valueOf str key with
  | some val => insertAll val.length val opSets
  | none => opSets

def parserBoolFlags (str key : Text) (flag : Bool) : Bool :=
  match valueOf str key with
  | some val =>
    let val := val.map Char.toLower
    if "true".toList = val then true
    else if "false".toList = val then false
    else flag
  | none => flag

/-- The parts of the value of tolerances: both are the value itself where it has no comma. -/
def tolParts (val : Text) : Text × Text :=
  match val.dropWhile (· ≠ ',') with
  | [] => (val, val)
  | _ :: atolStr => (val.takeWhile (· ≠ ','), atolStr)

variable {N : Type}

/-- The assignments of `parserTolValue`, up to one whose text `stold` rejects. -/
def assignTol (stold : Text → Option N) (val : Text) (tol : N × N) : N × N :=
  let (rtolStr, atolStr) := tolParts val
  match (if rtolStr = [] then some tol.1 else stold rtolStr) with
  | none => tol
  | some rtol =>
    match (if atolStr = [] then some tol.2 else stold atolStr) with
    | none => (rtol, tol.2)
    | some atol => (rtol, atol)

def parserTolValue (stold : Text → Option N) (str key : Text) (tol : N × N) : N × N :=
  match valueOf str key with
  | some val => assignTol stold val tol
  | none => tol

def parserStringValue (str key : Text) (value : Text) : Text :=
  match valueOf str key with
  | some val => val
  | none => value

/-! ### The configuration -/

/-- The settings that the text decides. -/
structure Settings (N : Type) where
  opSyncMode : Bool := false
  opCheckNoBreak : Bool := false
  opCheckDump : Bool := false
  opStatistics : Bool := false
  opStatisticsDump : Bool := false
  opCalltrace : Bool := false
  testMode : Bool := false
  fallbackCpu : OpSelection := {}
  opCheck : OpSelection := {}
  deregister : OpSelection := {}
  opInputDump : OpSelection := {}
  opOutputDump : OpSelection := {}
  opCheckTolFp32 : N × N
  opCheckTolFp16 : N × N
  opCheckTolBf16 : N × N
  dumpPath : Text := "./torch_gcu_dump_file".toList

/-- The settings with the paths that are made from them. -/
structure Config (N : Type) extends Settings N where
  opCheckDumpPath : Text
  opDumpPath : Text

/-- How numbers are read, with 1e-6 and 1e-3, and the process and the time in paths. -/
structure Environment (N : Type) where
  stold : Text → Option N
  tolFp32 : N
  tolHalf : N
  pidTimestep : Text

variable (environment : Environment N)

def key (name : String) : Text := name.toList ++ ['=']

/-- What `init` makes of the text. -/
def parse (str : Text) : Settings N where
  opSyncMode := parserBoolFlags str (key "op_sync_mode") false
  opCheckDump := parserBoolFlags str (key "op_check_dump") false
  opCheckNoBreak := parserBoolFlags str (key "op_check_no_break") false
  opStatistics := parserBoolFlags str (key "op_statistics") false
  opStatisticsDump := parserBoolFlags str (key "op_statistics_dump") false
  testMode := parserBoolFlags str (key "test_mode") false
  opCheck := parserOperators str (key "op_check") {}
  fallbackCpu := parserOperators str (key "fallback_cpu") {}
  deregister := parserOperators str (key "deregister") {}
  opInputDump := parserOperators str (key "op_input_dump") {}
  opOutputDump := parserOperators str (key "op_output_dump") {}
  opCheckTolFp32 := parserTolValue environment.stold str (key "op_check_tol_fp32")
    (environment.tolFp32, environment.tolFp32)
  opCheckTolFp16 := parserTolValue environment.stold str (key "op_check_tol_fp16")
    (environment.tolHalf, environment.tolHalf)
  opCheckTolBf16 := parserTolValue environment.stold str (key "op_check_tol_bf16")
    (environment.tolHalf, environment.tolHalf)
  dumpPath := parserStringValue str (key "dump_path") "./torch_gcu_dump_file".toList
  opCalltrace := parserBoolFlags str (key "op_calltrace") false

/-- `anyCheckOp`, `anyOpDumpInput` and `anyOpDumpOutput`. -/
def anyOp (opSets : OpSelection) : Bool := !(!opSets.selectAll && opSets.included = ∅)

/-- The paths that dumps go to. -/
def withPaths (settings : Settings N) : Config N :=
  let dumpsCheck := settings.opCheckDump && anyOp settings.opCheck
  let dumpsOps := anyOp settings.opInputDump || anyOp settings.opOutputDump
  let pidTimestep :=
    if (dumpsCheck || dumpsOps) && !settings.testMode then environment.pidTimestep else []
  { settings with
    opCheckDumpPath :=
      if dumpsCheck then settings.dumpPath ++ "/op_check_dump".toList ++ pidTimestep else []
    opDumpPath := if dumpsOps then settings.dumpPath ++ "/op_dump".toList ++ pidTimestep else [] }

/-- `OpDebugConfig::init`, on the values of the deprecated variable and of the new one. -/
def init (kAotOpCFG kOpDebugConfig : Text) : Config N :=
  withPaths environment (parse environment
    (if kAotOpCFG ≠ [] ∧ kOpDebugConfig = [] then kAotOpCFG else kOpDebugConfig))

/-! ### Fields, and what they should set -/

/-- A field of the text: neither part has a space, and the key has no equals sign. -/
structure Field where
  key : Text
  value : Text
  keyPlain : ' ' ∉ key ∧ '=' ∉ key
  valuePlain : ' ' ∉ value

def Field.text (field : Field) : Text := field.key ++ '=' :: field.value

/-- The text of fields, which are separated by spaces. -/
def render : List Field → Text
  | [] => []
  | [field] => field.text
  | field :: next :: fields => field.text ++ ' ' :: render (next :: fields)

def flagNames : List String :=
  ["op_sync_mode", "op_check_no_break", "op_check_dump", "op_statistics", "op_statistics_dump",
    "op_calltrace", "test_mode"]

def operatorNames : List String :=
  ["fallback_cpu", "op_check", "deregister", "op_input_dump", "op_output_dump"]

def tolNames : List String := ["op_check_tol_fp32", "op_check_tol_fp16", "op_check_tol_bf16"]

/-- Fields in any order, with each known key at most once. -/
structure Fields where
  list : List Field
  once : ∀ name ∈ flagNames ++ operatorNames ++ tolNames ++ ["dump_path"],
    list.countP (·.key = name.toList) ≤ 1

/-- The value of the field of a key. -/
def own (fields : List Field) (name : String) : Option Text :=
  (fields.find? (·.key = name.toList)).map (·.value)

/-- Whether a flag is true, in any case. -/
def flagOf : Option Text → Bool
  | some val => val.map Char.toLower = "true".toList
  | none => false

def isAll (entry : Text) : Bool := entry = "all".toList || entry = "all_ops".toList

/-- The operators that a list selects: it has all of them if an entry says so, names those of its
other entries and excludes those with a minus. -/
def operatorsOf : Option Text → OpSelection
  | some val =>
    let entries := (val.splitOn ',').filter (· ≠ [])
    { selectAll := entries.any isAll
      included := (entries.filter fun entry => !isAll entry && entry.head? ≠ some '-').toFinset
      excluded := ((entries.filter (·.head? = some '-')).map List.tail).toFinset }
  | none => {}

/-- A number, where an empty text stands for the default. -/
def numberOr (stold : Text → Option N) (default : N) (text : Text) : Option N :=
  if text = [] then some default else stold text

/-- The tolerances of a text, of which neither is set when one is rejected. -/
def tolerancesOf (stold : Text → Option N) (default : N × N) : Option Text → N × N
  | some val =>
    match numberOr stold default.1 (tolParts val).1, numberOr stold default.2 (tolParts val).2 with
    | some rtol, some atol => (rtol, atol)
    | _, _ => default
  | none => default

/-- The settings that fields ask for. -/
def expected (fields : List Field) : Settings N where
  opSyncMode := flagOf (own fields "op_sync_mode")
  opCheckDump := flagOf (own fields "op_check_dump")
  opCheckNoBreak := flagOf (own fields "op_check_no_break")
  opStatistics := flagOf (own fields "op_statistics")
  opStatisticsDump := flagOf (own fields "op_statistics_dump")
  testMode := flagOf (own fields "test_mode")
  opCheck := operatorsOf (own fields "op_check")
  fallbackCpu := operatorsOf (own fields "fallback_cpu")
  deregister := operatorsOf (own fields "deregister")
  opInputDump := operatorsOf (own fields "op_input_dump")
  opOutputDump := operatorsOf (own fields "op_output_dump")
  opCheckTolFp32 := tolerancesOf environment.stold (environment.tolFp32, environment.tolFp32)
    (own fields "op_check_tol_fp32")
  opCheckTolFp16 := tolerancesOf environment.stold (environment.tolHalf, environment.tolHalf)
    (own fields "op_check_tol_fp16")
  opCheckTolBf16 := tolerancesOf environment.stold (environment.tolHalf, environment.tolHalf)
    (own fields "op_check_tol_bf16")
  dumpPath := (own fields "dump_path").getD "./torch_gcu_dump_file".toList
  opCalltrace := flagOf (own fields "op_calltrace")

/-! ### When they do -/

/-- The key with its equals sign stands in no field before its own, or in no field at all. -/
def Undisturbed (fields : List Field) (name : String) : Prop :=
  ∀ field ∈ fields.takeWhile (·.key ≠ name.toList), ¬ key name <:+: field.text

/-- What follows the first occurrence of the key, up to the end of the field it stands in. -/
def occurrence (fields : List Field) (name : String) : Option Text :=
  fields.findSome? fun field => findAfter (key name) field.text

/-- The text at the first occurrence of the key reads as its own field does. -/
def PlainRight {β : Type} (read : Option Text → β) (fields : List Field) (name : String) : Prop :=
  Undisturbed fields name ∨ read (occurrence fields name) = read (own fields name)

/-- The first number sets a tolerance before the second one is rejected. -/
def PartlyRejected (stold : Text → Option N) (default : N × N) (val : Text) : Prop :=
  (∃ rtol, (tolParts val).1 ≠ [] ∧ stold (tolParts val).1 = some rtol ∧ rtol ≠ default.1) ∧
    (tolParts val).2 ≠ [] ∧ stold (tolParts val).2 = none

/-- The text at the first occurrence of the key is not rejected in part and reads as the own field
does, or it is, with the first tolerance that the own field asks for, whose second one is the
default. -/
def TolRight (stold : Text → Option N) (default : N × N) (fields : List Field) (name : String) :
    Prop :=
  ((∀ val ∈ occurrence fields name, ¬ PartlyRejected stold default val) ∧
      PlainRight (tolerancesOf stold default) fields name) ∨
    ∃ val ∈ occurrence fields name, PartlyRejected stold default val ∧
      ∃ rtol, stold (tolParts val).1 = some rtol ∧
        tolerancesOf stold default (own fields name) = (rtol, default.2)

/-- Every setting is decided by its own field. -/
def OwnDecide (fields : List Field) : Prop :=
  (∀ name ∈ flagNames, PlainRight flagOf fields name) ∧
    (∀ name ∈ operatorNames, PlainRight operatorsOf fields name) ∧
    TolRight environment.stold (environment.tolFp32, environment.tolFp32) fields
      "op_check_tol_fp32" ∧
    TolRight environment.stold (environment.tolHalf, environment.tolHalf) fields
      "op_check_tol_fp16" ∧
    TolRight environment.stold (environment.tolHalf, environment.tolHalf) fields
      "op_check_tol_bf16" ∧
    PlainRight (·.getD "./torch_gcu_dump_file".toList) fields "dump_path"

/-! ### Keys in the text -/

theorem upToSpace_plain {text : Text} (plain : ' ' ∉ text) : upToSpace text = text := by
  induction text with
  | nil => rfl
  | cons c text ih =>
    simp only [List.mem_cons, not_or] at plain
    have other : c ≠ ' ' := Ne.symm plain.1
    have rest := ih plain.2
    simp only [upToSpace] at rest
    simp only [upToSpace, List.takeWhile_cons, other, ne_eq, not_false_eq_true, decide_true, if_true,
      rest]

theorem upToSpace_append {text : Text} (plain : ' ' ∉ text) (rest : Text) :
    upToSpace (text ++ ' ' :: rest) = text := by
  have whole := upToSpace_plain plain
  simp only [upToSpace] at whole ⊢
  rw [List.takeWhile_append, whole]
  simp

theorem Field.text_plain (field : Field) : ' ' ∉ field.text := by
  simp [Field.text, field.keyPlain.1, field.valuePlain]

/-- A key finds the same text in all fields as in the first field that it stands in. -/
theorem valueOf_render {name : String} (plain : ' ' ∉ name.toList) (fields : List Field) :
    valueOf (render fields) (key name) = occurrence fields name := by
  have absent : ' ' ∉ key name := by simp [key, plain]
  have long : key name ≠ [] := by simp [key]
  have inside : ∀ (field : Field) (after : Text),
      findAfter (key name) field.text = some after → ' ' ∉ after :=
    fun field after found space => field.text_plain ((findAfter_suffix found).subset space)
  induction fields with
  | nil => simp [valueOf, render, findAfter, long, occurrence]
  | cons field fields ih =>
    cases fields with
    | nil =>
      simp only [valueOf, render, occurrence, List.findSome?_cons, List.findSome?_nil]
      cases found : findAfter (key name) field.text with
      | none => rfl
      | some after => simp only [Option.map_some, upToSpace_plain (inside field after found)]
    | cons next fields =>
      simp only [valueOf, occurrence] at ih ⊢
      rw [render, findAfter_append_sep absent long, List.findSome?_cons]
      cases found : findAfter (key name) field.text with
      | none => exact ih
      | some after =>
        simp only [Option.map_some, Option.some_or,
          upToSpace_append (inside field after found)]

/-- An undisturbed key finds the value of its own field. -/
theorem occurrence_own {fields : List Field} {name : String}
    (undisturbed : Undisturbed fields name) : occurrence fields name = own fields name := by
  induction fields with
  | nil => rfl
  | cons field fields ih =>
    by_cases same : field.key = name.toList
    · have found : findAfter (key name) field.text = some field.value := by
        have text : field.text = key name ++ field.value := by simp [Field.text, key, same]
        rw [text, findAfter_prefix]
      simp [occurrence, own, found, same]
    · have unfold : (field :: fields).takeWhile (·.key ≠ name.toList) =
          field :: fields.takeWhile (·.key ≠ name.toList) := by simp [same]
      simp only [Undisturbed, unfold, List.forall_mem_cons] at undisturbed
      have next := ih undisturbed.2
      simp only [occurrence, own] at next
      simpa [occurrence, own, findAfter_eq_none.mpr undisturbed.1, same] using next

/-! ### What the parsers read -/

theorem parserBoolFlags_eq (str key : Text) :
    parserBoolFlags str key false = flagOf (valueOf str key) := by
  unfold parserBoolFlags flagOf
  cases valueOf str key with
  | none => rfl
  | some val =>
    simp only [eq_comm (a := "true".toList), ite_self]
    split <;> simp_all

/-- A text has no comma, or parts around its first one. -/
theorem comma_cases (val : Text) :
    (',' ∉ val ∧ val.dropWhile (· ≠ ',') = []) ∨
      ∃ op rest, val = op ++ ',' :: rest ∧ ',' ∉ op ∧ val.takeWhile (· ≠ ',') = op ∧
        val.dropWhile (· ≠ ',') = ',' :: rest := by
  induction val with
  | nil => exact .inl ⟨by simp, rfl⟩
  | cons c val ih =>
    by_cases comma : c = ','
    · exact .inr ⟨[], val, by simp [comma], by simp, by simp [comma], by simp [comma]⟩
    · rcases ih with ⟨absent, none⟩ | ⟨op, rest, whole, absent, taken, dropped⟩
      · exact .inl ⟨by simp [absent, Ne.symm comma], by simpa [comma] using none⟩
      · refine .inr ⟨c :: op, rest, by simp [whole], by simp [absent, Ne.symm comma], ?_, ?_⟩
        · simpa [comma] using taken
        · simpa [comma] using dropped

/-- The loop inserts the entries between commas that are not empty. -/
theorem insertAll_eq (fuel : Nat) (val : Text) (opSets : OpSelection)
    (enough : val.length ≤ fuel) : insertAll fuel val opSets =
      ((val.splitOn ',').filter (· ≠ [])).foldl insert opSets := by
  induction fuel generalizing val opSets with
  | zero =>
    have empty : val = [] := List.eq_nil_of_length_eq_zero (Nat.le_zero.mp enough)
    simp [insertAll, empty]
  | succ fuel ih =>
    by_cases empty : val = []
    · simp [insertAll, empty]
    · rw [insertAll, if_neg empty]
      rcases comma_cases val with ⟨absent, dropped⟩ | ⟨op, rest, whole, absent, taken, dropped⟩
      · rw [dropped, List.splitOn_eq_singleton absent]
        simp [empty]
      · have shorter : rest.length ≤ fuel := by
          simp only [whole, List.length_append, List.length_cons] at enough
          omega
        have split : val.splitOn ',' = op :: rest.splitOn ',' := by
          rw [whole, List.splitOn_eq_splitOnP, List.splitOn_eq_splitOnP]
          refine List.splitOnP_append_cons_of_forall_mem (fun c isChar => ?_) ',' (by simp) rest
          simpa using fun same : c = ',' => absent (same ▸ isChar)
        simp only [dropped, taken, split, ih rest _ shorter]
        by_cases none : op = []
        · simp [none]
        · simp [none]

section
variable (opSets : OpSelection) (entry name : Text)

theorem isAll_named (all : isAll entry = true) : entry.head? ≠ some '-' := by
  simp only [isAll, Bool.or_eq_true, decide_eq_true_eq] at all
  rcases all with rfl | rfl <;> decide +kernel

theorem insert_eq : insert opSets entry =
    if isAll entry then { opSets with selectAll := true }
    else if entry.head? = some '-' then
      { opSets with excluded := Insert.insert entry.tail opSets.excluded }
    else { opSets with included := Insert.insert entry opSets.included } := by
  simp only [insert, isAll, Bool.or_eq_true, decide_eq_true_eq]

theorem insert_selectAll :
    (insert opSets entry).selectAll = (opSets.selectAll || isAll entry) := by
  rw [insert_eq]
  split
  · rename_i all
    simp [all]
  · split <;> simp_all

theorem mem_insert_included : name ∈ (insert opSets entry).included ↔
    name ∈ opSets.included ∨ name = entry ∧ isAll entry = false ∧ entry.head? ≠ some '-' := by
  rw [insert_eq]
  split
  · simp_all
  · split <;> simp_all [or_comm]

theorem mem_insert_excluded : name ∈ (insert opSets entry).excluded ↔
    name ∈ opSets.excluded ∨ name = entry.tail ∧ entry.head? = some '-' := by
  rw [insert_eq]
  split
  · rename_i all
    simp [isAll_named entry all]
  · split <;> simp_all [or_comm]

end

/-- The entries add to what is selected, named and excluded. -/
theorem foldl_insert (entries : List Text) (opSets : OpSelection) :
    (entries.foldl insert opSets).selectAll = (opSets.selectAll || entries.any isAll) ∧
      (∀ name, name ∈ (entries.foldl insert opSets).included ↔ name ∈ opSets.included ∨
        name ∈ entries ∧ isAll name = false ∧ name.head? ≠ some '-') ∧
      ∀ name, name ∈ (entries.foldl insert opSets).excluded ↔ name ∈ opSets.excluded ∨
        ∃ entry ∈ entries, entry.head? = some '-' ∧ entry.tail = name := by
  induction entries generalizing opSets with
  | nil => simp
  | cons entry entries ih =>
    obtain ⟨all, included, excluded⟩ := ih (insert opSets entry)
    refine ⟨?_, fun name => ?_, fun name => ?_⟩
    · rw [List.foldl_cons, all, insert_selectAll, List.any_cons, Bool.or_assoc]
    · rw [List.foldl_cons, included, mem_insert_included, List.mem_cons]
      constructor
      · rintro ((old | ⟨rfl, named⟩) | ⟨isEntry, named⟩)
        · exact .inl old
        · exact .inr ⟨.inl rfl, named⟩
        · exact .inr ⟨.inr isEntry, named⟩
      · rintro (old | ⟨rfl | isEntry, named⟩)
        · exact .inl (.inl old)
        · exact .inl (.inr ⟨rfl, named⟩)
        · exact .inr ⟨isEntry, named⟩
    · rw [List.foldl_cons, excluded, mem_insert_excluded, List.exists_mem_cons_iff]
      constructor
      · rintro ((old | ⟨rfl, minus⟩) | other)
        · exact .inl old
        · exact .inr (.inl ⟨minus, rfl⟩)
        · exact .inr (.inr other)
      · rintro (old | ⟨minus, rfl⟩ | other)
        · exact .inl (.inl old)
        · exact .inl (.inr ⟨rfl, minus⟩)
        · exact .inr other

theorem parserOperators_eq (str key : Text) :
    parserOperators str key {} = operatorsOf (valueOf str key) := by
  unfold parserOperators operatorsOf
  cases valueOf str key with
  | none => rfl
  | some val =>
    obtain ⟨all, included, excluded⟩ := foldl_insert ((val.splitOn ',').filter (· ≠ [])) {}
    have parts : ∀ {a b : OpSelection}, a.selectAll = b.selectAll →
        (∀ name, name ∈ a.included ↔ name ∈ b.included) →
          (∀ name, name ∈ a.excluded ↔ name ∈ b.excluded) → a = b := by
      rintro ⟨_, _, _⟩ ⟨_, _, _⟩ rfl included excluded
      rw [OpSelection.mk.injEq]
      exact ⟨rfl, Finset.ext included, Finset.ext excluded⟩
    simp only [insertAll_eq val.length val {} (Nat.le_refl _)]
    refine parts (by rw [all]; rfl) (fun name => ?_) fun name => ?_
    · rw [included]
      simp [and_assoc, and_comm, and_left_comm]
    · rw [excluded]
      simp [and_assoc, and_comm, and_left_comm]

/-- What `parserTolValue` makes of the text it finds. -/
def assigned (stold : Text → Option N) (default : N × N) : Option Text → N × N
  | some val => assignTol stold val default
  | none => default

theorem parserTolValue_eq (stold : Text → Option N) (str key : Text) (default : N × N) :
    parserTolValue stold str key default = assigned stold default (valueOf str key) := by
  unfold parserTolValue assigned
  cases valueOf str key <;> rfl

theorem parserStringValue_eq (str key value : Text) :
    parserStringValue str key value = (valueOf str key).getD value := by
  unfold parserStringValue
  cases valueOf str key <;> rfl

/-- The assignments are those of the text unless it is rejected in part. -/
theorem assigned_right (stold : Text → Option N) (default : N × N) (text : Option Text) :
    assigned stold default text = tolerancesOf stold default text ↔
      ∀ val ∈ text, ¬ PartlyRejected stold default val := by
  cases text with
  | none => simp [assigned, tolerancesOf]
  | some val =>
    simp only [assigned, tolerancesOf, assignTol, numberOr, Option.mem_def, Option.some.injEq,
      forall_eq', PartlyRejected]
    by_cases noRtol : (tolParts val).1 = [] <;> by_cases noAtol : (tolParts val).2 = []
    · simp [noRtol, noAtol]
    · cases stold (tolParts val).2 <;> simp [noRtol, noAtol]
    · cases stold (tolParts val).1 <;> simp [noRtol, noAtol]
    · cases stold (tolParts val).1 <;> cases stold (tolParts val).2 <;>
        simp [noRtol, noAtol, Prod.ext_iff]

/-! ### Settings and fields -/

section
variable {fields : List Field} {name : String}

theorem plainRight_iff {β : Type} (read : Option Text → β) : PlainRight read fields name ↔
    read (occurrence fields name) = read (own fields name) := by
  refine ⟨fun right => right.elim (fun undisturbed => ?_) id, .inr⟩
  rw [occurrence_own undisturbed]

/-- A text that is rejected in part sets the first tolerance. -/
theorem assigned_partly {stold : Text → Option N} {default : N × N} {val : Text} {rtol : N}
    (partly : PartlyRejected stold default val) (first : stold (tolParts val).1 = some rtol) :
    assigned stold default (some val) = (rtol, default.2) := by
  obtain ⟨⟨_, some, _, _⟩, more, rejected⟩ := partly
  simp [assigned, assignTol, some, first, more, rejected]

theorem tolRight_iff (stold : Text → Option N) (default : N × N) :
    TolRight stold default fields name ↔
      assigned stold default (occurrence fields name) =
        tolerancesOf stold default (own fields name) := by
  unfold TolRight
  rw [plainRight_iff]
  by_cases whole : ∀ val ∈ occurrence fields name, ¬ PartlyRejected stold default val
  · rw [(assigned_right stold default _).mpr whole]
    refine ⟨fun right => ?_, fun same => .inl ⟨whole, same⟩⟩
    rcases right with ⟨-, same⟩ | ⟨val, isVal, partly, -⟩
    · exact same
    · exact absurd partly (whole val isVal)
  · obtain ⟨val, isVal, partly⟩ : ∃ val ∈ occurrence fields name,
        PartlyRejected stold default val := by simpa using whole
    obtain ⟨⟨rtol, some, first, other⟩, rest⟩ := partly
    have partly : PartlyRejected stold default val := ⟨⟨rtol, some, first, other⟩, rest⟩
    rw [Option.mem_def.mp isVal, assigned_partly partly first]
    refine ⟨fun right => ?_, fun same => .inr ⟨val, rfl, partly, rtol, first, same.symm⟩⟩
    rcases right with ⟨never, -⟩ | ⟨_, ⟨⟩, -, same, isSame, asked⟩
    · exact absurd partly (never val rfl)
    · cases first.symm.trans isSame
      exact asked.symm

theorem known_plain : ∀ name ∈ flagNames ++ operatorNames ++ tolNames ++ ["dump_path"],
    ' ' ∉ name.toList := by decide +kernel

end

/-- The settings as they are read, from the first occurrence of each key. -/
theorem parse_render (fields : List Field) : parse environment (render fields) =
    { opSyncMode := flagOf (occurrence fields "op_sync_mode")
      opCheckDump := flagOf (occurrence fields "op_check_dump")
      opCheckNoBreak := flagOf (occurrence fields "op_check_no_break")
      opStatistics := flagOf (occurrence fields "op_statistics")
      opStatisticsDump := flagOf (occurrence fields "op_statistics_dump")
      testMode := flagOf (occurrence fields "test_mode")
      opCheck := operatorsOf (occurrence fields "op_check")
      fallbackCpu := operatorsOf (occurrence fields "fallback_cpu")
      deregister := operatorsOf (occurrence fields "deregister")
      opInputDump := operatorsOf (occurrence fields "op_input_dump")
      opOutputDump := operatorsOf (occurrence fields "op_output_dump")
      opCheckTolFp32 := assigned environment.stold (environment.tolFp32, environment.tolFp32)
        (occurrence fields "op_check_tol_fp32")
      opCheckTolFp16 := assigned environment.stold (environment.tolHalf, environment.tolHalf)
        (occurrence fields "op_check_tol_fp16")
      opCheckTolBf16 := assigned environment.stold (environment.tolHalf, environment.tolHalf)
        (occurrence fields "op_check_tol_bf16")
      dumpPath := (occurrence fields "dump_path").getD "./torch_gcu_dump_file".toList
      opCalltrace := flagOf (occurrence fields "op_calltrace") } := by
  have read : ∀ name ∈ flagNames ++ operatorNames ++ tolNames ++ ["dump_path"],
      valueOf (render fields) (key name) = occurrence fields name :=
    fun name known => valueOf_render (known_plain name known) fields
  simp only [flagNames, operatorNames, tolNames, List.cons_append, List.nil_append,
    List.forall_mem_cons] at read
  obtain ⟨h1, h2, h3, h4, h5, h6, h7, h8, h9, h10, h11, h12, h13, h14, h15, h16, _⟩ := read
  simp only [parse, parserBoolFlags_eq, parserOperators_eq, parserTolValue_eq,
    parserStringValue_eq, h1, h2, h3, h4, h5, h6, h7, h8, h9, h10, h11, h12, h13, h14, h15, h16]

/-- Every setting is the value of its own field, or the default, exactly if the own fields decide:
no other field disturbs a key to an effect, and no tolerance is rejected in part. The text may come
from either variable. -/
theorem settings_own (environment : Environment N) (fields : Fields) (deprecated : Bool) :
    (init environment (if deprecated then render fields.list else [])
        (if deprecated then [] else render fields.list)).toSettings =
      expected environment fields.list ↔ OwnDecide environment fields.list := by
  have text : (init environment (if deprecated then render fields.list else [])
      (if deprecated then [] else render fields.list)).toSettings =
        parse environment (render fields.list) := by
    cases deprecated with
    | false => simp [init, withPaths]
    | true =>
      by_cases empty : render fields.list = []
      · simp [init, withPaths, empty]
      · simp [init, withPaths, empty]
  rw [text, parse_render, expected, Settings.mk.injEq]
  simp only [OwnDecide, flagNames, operatorNames, List.forall_mem_cons, plainRight_iff,
    tolRight_iff]
  constructor
  · rintro ⟨a, b, c, d, e, f, g, h, i, j, k, l, m, n, o, p⟩
    exact ⟨⟨a, b, c, d, e, f, g, by simp⟩, ⟨h, i, j, k, l, by simp⟩, m, n, o, p⟩
  · rintro ⟨⟨a, b, c, d, e, f, g, _⟩, ⟨h, i, j, k, l, _⟩, m, n, o, p⟩
    exact ⟨a, b, c, d, e, f, g, h, i, j, k, l, m, n, o, p⟩

/-- No text is a number. -/
def noNumbers : Environment Nat where
  stold _ := none
  tolFp32 := 0
  tolHalf := 0
  pidTimestep := []

/-- A dump path that has the text of another key in it turns that flag on. -/
theorem settings_disturbed : ¬ ∀ (N : Type) (environment : Environment N) (fields : Fields)
    (deprecated : Bool),
      (init environment (if deprecated then render fields.list else [])
        (if deprecated then [] else render fields.list)).toSettings =
          expected environment fields.list := by
  intro holds
  have same := holds Nat noNumbers ⟨[⟨"dump_path".toList, "/tmp/op_sync_mode=true".toList,
    by decide +kernel, by decide +kernel⟩], by decide +kernel⟩ false
  exact absurd (congrArg Settings.opSyncMode same) (by decide +kernel)

end TorchGcu.OpDebugConfig

import Mathlib.Data.List.Basic
import Mathlib.Data.List.Nodup
import Mathlib.Tactic.Common

/-! `TOPS_VISIBLE_DEVICES`: the list that it spells, how many of the listed devices there are, and
which device an index stands for. -/
namespace TorchGcu.VisibleDevices

abbrev Text := List Char

/-- What the interpreter says of characters: `str.isdigit`, the digit that `int` reads, the blanks
that `str.strip` removes; and how many digits `int` accepts, if it has a limit. -/
structure Python where
  isDigit : Char → Bool
  decimal : Char → Option Nat
  isSpace : Char → Bool
  maxStrDigits : Option Nat

inductive Raised where
  | valueError
  | indexError
  | osError
  /-- "Can't get device UUIDs" -/
  | noUuids
  /-- "device .. is not visible" -/
  | notVisible (idx : Int) (visible : List Int)
deriving DecidableEq

/-! ### The list -/

section Parse
variable (py : Python)

def strip (s : Text) : Text := ((s.dropWhile py.isSpace).reverse.dropWhile py.isSpace).reverse

def isSign (c : Char) : Bool := c = '+' || c = '-'

/-- The digits that follow a sign, if there is one. -/
def unsigned (s : Text) : Text :=
  match s with
  | c :: rest => if isSign c then rest else s
  | [] => []

/-- `int`, of a sign and digits. -/
def int (s : Text) : Except Raised Int :=
  match (unsigned s).mapM py.decimal with
  | none => .error .valueError
  | some digits =>
    if digits = [] ∨ ∃ most ∈ py.maxStrDigits, most < digits.length then .error .valueError
    else
      let value : Nat := digits.foldl (fun value digit => 10 * value + digit) 0
      .ok (if s.head? = some '-' then -value else value)

/-- The loop of `_strtoul` over the characters from `idx` on. -/
def strtoulEnd (length : Nat) : Nat → Text → Nat
  | idx, [] => idx
  | idx, c :: rest =>
    if ¬ (py.isDigit c ∨ idx = 0 ∧ isSign c = true) then idx
    else if idx + 1 = length then idx + 1
    else strtoulEnd length (idx + 1) rest

def strtoul (s : Text) : Except Raised Int :=
  if s = [] then .ok (-1)
  else
    let idx := strtoulEnd py s.length 0 s
    if idx > 0 then int py (s.take idx) else .ok (-1)

def parseListWithPrefix (start : Text) : List Text → List Text → List Text
  | rcs, [] => rcs
  | rcs, elem :: rest =>
    -- a repeated id results in the empty set
    if rcs.contains elem then []
    else if ¬ start <+: elem then rcs
    else parseListWithPrefix start (rcs ++ [elem]) rest

def parseOrdinals : List Int → List Text → Except Raised (List Int)
  | rc, [] => .ok rc
  | rc, elem :: rest => do
    let x ← strtoul py (strip py elem)
    if x ∈ rc then return []
    else if x < 0 then return rc
    else parseOrdinals (rc ++ [x]) rest

inductive Visible where
  | ordinals (list : List Int)
  | uuids (list : List Text)
deriving DecidableEq

def gcu : Text := ['G', 'C', 'U', '-']

def mig : Text := ['M', 'I', 'G', '-']

def tokens (var : Text) : List Text := var.splitOn ','

/-- `_parse_visible_devices`, of the variable if it is set. -/
def parseVisibleDevices : Option Text → Except Raised Visible
  | none => .ok (.ordinals ((List.range 64).map Int.ofNat))
  | some var =>
    if gcu <+: var then .ok (.uuids (parseListWithPrefix gcu [] (tokens var)))
    else if mig <+: var then .ok (.uuids (parseListWithPrefix mig [] (tokens var)))
    else .ordinals <$> parseOrdinals py [] (tokens var)

end Parse

/-! ### Devices -/

/-- What EFML says: its library may be missing, it may fail to start, or it reports devices. -/
inductive Efml where
  | missing
  | failed
  | devices (uuids : List Text)

/-- The loop of `uuid_to_ordinal` over the known ids from `idx` on. -/
def uuidToOrdinal (candidate : Text) : Nat → Int → List Text → Int
  | _, bestMatch, [] => bestMatch
  | idx, bestMatch, uuid :: rest =>
    if ¬ candidate <+: uuid then uuidToOrdinal candidate (idx + 1) bestMatch rest
    else if bestMatch ≠ -1 then -1
    else uuidToOrdinal candidate (idx + 1) idx rest

def transformUuidToOrdinals (uuids : List Text) : List Int → List Text → List Int
  | rc, [] => rc
  | rc, candidate :: rest =>
    let idx := uuidToOrdinal candidate 0 (-1) uuids
    if idx < 0 then rc
    -- duplicates result in the empty set
    else if idx ∈ rc then []
    else transformUuidToOrdinals uuids (rc ++ [idx]) rest

/-- Where the list is trimmed: at the first ordinal that is no device. -/
def trim (rawCnt : Int) : Nat → List Int → Nat
  | idx, [] => idx
  | idx, val :: rest => if val ≥ rawCnt then idx else trim rawCnt (idx + 1) rest

/-- `_device_count_efml`, which answers -1 where EFML cannot be used. -/
def deviceCountEfml (py : Python) (var : Option Text) (efml : Efml) : Except Raised Int := do
  match ← parseVisibleDevices py var with
  | .ordinals [] | .uuids [] => return 0
  | .uuids (first :: rest) =>
    if mig <+: first then return -1
    else match efml with
      | .missing | .failed => return -1
      | .devices uuids => return (transformUuidToOrdinals uuids [] (first :: rest)).length
  | .ordinals (first :: rest) =>
    match efml with
    | .missing | .failed => return -1
    | .devices uuids =>
      if uuids.length = 0 then return 0
      else return trim uuids.length 0 (first :: rest)

/-- The last lines of `_get_efml_device_index`. -/
def deviceAt (visible : List Int) (idx : Int) : Except Raised Int :=
  if idx < 0 ∨ idx ≥ visible.length then .error (.notVisible idx visible)
  else match visible[idx.toNat]? with
    | some device => .ok device
    | none => .error .indexError

/-- `_get_efml_device_index` of an index. -/
def getEfmlDeviceIndex (py : Python) (var : Option Text) (efml : Efml) (idx : Int) :
    Except Raised Int := do
  match ← parseVisibleDevices py var with
  | .ordinals [] | .uuids [] => throw .indexError
  | .uuids (first :: rest) =>
    match efml with
    | .missing => throw .osError
    | .failed => throw .noUuids
    | .devices uuids => deviceAt (transformUuidToOrdinals uuids [] (first :: rest)) idx
  | .ordinals (first :: rest) => deviceAt (first :: rest) idx

/-! ### Longest prefixes -/

section Prefixes
variable {α β : Type} {read : α → Option β}

/-- What is read from the longest prefix that can be read. -/
def leading (read : α → Option β) : List α → List β
  | [] => []
  | t :: rest =>
    match read t with
    | none => []
    | some x => x :: leading read rest

variable [DecidableEq β]

/-- The longest prefix that can be read, which is empty when it repeats something. -/
def validPrefix (read : α → Option β) (ts : List α) : List β :=
  if (leading read ts).Nodup then leading read ts else []

/-- A loop that collects what it reads, with a repeated element emptying it. -/
def collect (read : α → Option β) : List β → List α → List β
  | rc, [] => rc
  | rc, t :: rest =>
    match read t with
    | none => rc
    | some x => if x ∈ rc then [] else collect read (rc ++ [x]) rest

theorem collect_eq {rc : List β} (distinct : rc.Nodup) (ts : List α) :
    collect read rc ts = if (rc ++ leading read ts).Nodup then rc ++ leading read ts else [] := by
  induction ts generalizing rc with
  | nil => simp [collect, leading, distinct]
  | cons t rest ih =>
    cases reads : read t with
    | none => simp [collect, leading, reads, distinct]
    | some x =>
      have whole : rc ++ leading read (t :: rest) = rc ++ [x] ++ leading read rest := by
        simp [leading, reads]
      rw [whole]
      by_cases repeated : x ∈ rc
      · have twice : ¬ (rc ++ [x] ++ leading read rest).Nodup := by
          intro nodup
          have both := (List.nodup_append.mp (List.nodup_append.mp nodup).1).2.2 x repeated x
          exact both (List.mem_singleton_self x) rfl
        simp only [collect, reads, if_pos repeated, if_neg twice]
      · have still : (rc ++ [x]).Nodup :=
          List.nodup_append.mpr ⟨distinct, List.nodup_singleton x, fun a inside b single same => by
            rw [same, List.mem_singleton.mp single] at inside
            exact repeated inside⟩
        simp only [collect, reads, if_neg repeated, ih still]

theorem collect_nil (ts : List α) : collect read [] ts = validPrefix read ts := by
  rw [collect_eq List.nodup_nil, List.nil_append, validPrefix]

end Prefixes

/-! ### What a token spells -/

section Tokens
variable (py : Python)

/-- The sign and the digits that a text starts with. -/
def run (s : Text) : Text :=
  match s with
  | [] => []
  | c :: rest => if py.isDigit c ∨ isSign c = true then c :: rest.takeWhile py.isDigit else []

def number (digits : Text) : Nat :=
  (digits.filterMap py.decimal).foldl (fun value digit => 10 * value + digit) 0

/-- The ordinal that a token starts with, if it starts with one. -/
def ordinal (elem : Text) : Option Int :=
  let spelled := run py (strip py elem)
  let value := number py (unsigned spelled)
  if unsigned spelled = [] ∨ spelled.head? = some '-' ∧ value ≠ 0 then none else some value

/-- A sign is followed by a digit, all digits are decimal, and they are not too many for `int`. -/
def Spelled (elem : Text) : Prop :=
  let spelled := run py (strip py elem)
  let digits := unsigned spelled
  spelled = [] ∨ digits ≠ [] ∧ (∀ c ∈ digits, (py.decimal c).isSome) ∧
    ∀ most ∈ py.maxStrDigits, digits.length ≤ most

/-- Every token that is read is spelled, with `rc` read before. -/
def Readable : List Int → List Text → Prop
  | _, [] => True
  | rc, elem :: rest =>
    Spelled py elem ∧ ∀ x ∈ ordinal py elem, x ∉ rc → Readable (rc ++ [x]) rest

variable {py} {s : Text}

theorem strtoulEnd_eq {length idx : Nat} (positive : 0 < idx) (rest : Text)
    (whole : idx + rest.length = length) :
    strtoulEnd py length idx rest = idx + (rest.takeWhile py.isDigit).length := by
  induction rest generalizing idx with
  | nil => rfl
  | cons c rest ih =>
    have started : idx ≠ 0 := Nat.ne_of_gt positive
    rw [List.length_cons] at whole
    by_cases digit : py.isDigit c = true
    · rw [strtoulEnd, if_neg (by simp [digit]), List.takeWhile_cons_of_pos digit, List.length_cons]
      split
      · next last =>
        have none : rest = [] := List.eq_nil_of_length_eq_zero (by omega)
        simp [none]
      · rw [ih (Nat.succ_pos idx) (by omega)]
        omega
    · rw [strtoulEnd, if_pos (by simp [digit, started]), List.takeWhile_cons_of_neg digit]
      rfl

theorem strtoul_eq (s : Text) :
    strtoul py s = if run py s = [] then .ok (-1) else int py (run py s) := by
  cases s with
  | nil => rfl
  | cons c rest =>
    by_cases starts : py.isDigit c = true ∨ isSign c = true
    · have isRun : run py (c :: rest) = c :: rest.takeWhile py.isDigit := by
        rw [run, if_pos starts]
      have ends : strtoulEnd py (c :: rest).length 0 (c :: rest) =
          1 + (rest.takeWhile py.isDigit).length := by
        rw [strtoulEnd, if_neg (not_not.mpr (starts.imp_right fun sign => ⟨rfl, sign⟩))]
        split
        · next last =>
          have none : rest = [] := List.eq_nil_of_length_eq_zero (by simpa using last.symm)
          simp [none]
        · exact strtoulEnd_eq Nat.one_pos rest (by rw [List.length_cons]; omega)
      have taken : (c :: rest).take (1 + (rest.takeWhile py.isDigit).length) =
          c :: rest.takeWhile py.isDigit := by
        rw [Nat.add_comm, List.take_succ_cons]
        exact congrArg (c :: ·) (List.prefix_iff_eq_take.mp (List.takeWhile_prefix _)).symm
      rw [isRun, if_neg (List.cons_ne_nil _ _), strtoul, if_neg (List.cons_ne_nil _ _)]
      simp only [ends, taken]
      rw [if_pos (by omega)]
    · have isRun : run py (c :: rest) = [] := by rw [run, if_neg starts]
      have ends : strtoulEnd py (c :: rest).length 0 (c :: rest) = 0 := by
        rw [strtoulEnd, if_pos (by simpa using starts)]
      rw [isRun, if_pos rfl, strtoul, if_neg (List.cons_ne_nil _ _)]
      simp only [ends]
      rfl

theorem mapM_decimal (digits : Text) (all : ∀ c ∈ digits, (py.decimal c).isSome) :
    digits.mapM py.decimal = some (digits.filterMap py.decimal) := by
  induction digits with
  | nil => rfl
  | cons c rest ih =>
    rw [List.forall_mem_cons] at all
    obtain ⟨d, isDigit⟩ := Option.isSome_iff_exists.mp all.1
    simp [ih all.2, isDigit]

/-- A token that is spelled is read as its ordinal, or as a negative number if it has none. -/
theorem strtoul_spelled {elem : Text} (spelled : Spelled py elem) :
    ∃ x, strtoul py (strip py elem) = .ok x ∧
      ordinal py elem = if x < 0 then none else some x := by
  unfold Spelled at spelled
  unfold ordinal
  rw [strtoul_eq]
  generalize run py (strip py elem) = text at spelled ⊢
  rcases spelled with none | ⟨some, decimal, few⟩
  · subst none
    exact ⟨-1, rfl, by simp [unsigned]⟩
  · have started : text ≠ [] := by
      rintro rfl
      exact some rfl
    have read := mapM_decimal (unsigned text) decimal
    have length := List.filterMap_length_eq_length.mpr decimal
    have digits : (unsigned text).filterMap py.decimal ≠ [] := by
      intro none
      rw [none] at length
      exact some (List.eq_nil_of_length_eq_zero length.symm)
    have accepted : ¬ ((unsigned text).filterMap py.decimal = [] ∨
        ∃ most ∈ py.maxStrDigits, most < ((unsigned text).filterMap py.decimal).length) := by
      rintro (none | ⟨most, limit, many⟩)
      · exact digits none
      · rw [length] at many
        exact absurd (few most limit) (Nat.not_le.mpr many)
    have spells : int py text = .ok (if text.head? = .some '-' then -(number py (unsigned text))
        else number py (unsigned text)) := by
      simp only [int, read, if_neg accepted]
      rfl
    rw [if_neg started]
    refine ⟨_, spells, ?_⟩
    by_cases negative : text.head? = .some '-'
    · by_cases zero : number py (unsigned text) = 0 <;> simp [some, negative, zero]
    · have nonneg : ¬ (number py (unsigned text) : Int) < 0 := by omega
      simp [some, negative, nonneg]

/-- The list of ordinals, when its tokens are spelled. -/
theorem parseOrdinals_eq {rc : List Int} {ts : List Text} (nonneg : ∀ x ∈ rc, 0 ≤ x)
    (readable : Readable py rc ts) :
    parseOrdinals py rc ts = .ok (collect (ordinal py) rc ts) := by
  induction ts generalizing rc with
  | nil => rfl
  | cons elem rest ih =>
    obtain ⟨spelled, later⟩ := readable
    obtain ⟨x, read, isOrdinal⟩ := strtoul_spelled spelled
    simp only [parseOrdinals, read, bind, Except.bind, collect, isOrdinal]
    by_cases negative : x < 0
    · have fresh : x ∉ rc := fun inside => absurd (nonneg x inside) (Int.not_le.mpr negative)
      simp only [if_neg fresh, if_pos negative]
      rfl
    · by_cases repeated : x ∈ rc
      · simp only [if_pos repeated, if_neg negative]
        rfl
      · simp only [if_neg repeated, if_neg negative]
        refine ih ?_ (later x (by simp [isOrdinal, negative]) repeated)
        intro y inside
        rcases List.mem_append.mp inside with before | here
        · exact nonneg y before
        · rw [List.mem_singleton.mp here]
          omega

/-- A token that starts with a text, which is read as it stands. -/
def named (start elem : Text) : Option Text := if start <+: elem then some elem else none

theorem parseListWithPrefix_eq {start : Text} {rcs : List Text} (ts : List Text)
    (all : ∀ elem ∈ rcs, start <+: elem) :
    parseListWithPrefix start rcs ts = collect (named start) rcs ts := by
  induction ts generalizing rcs with
  | nil => rfl
  | cons elem rest ih =>
    by_cases starts : start <+: elem
    · have read : ¬ ¬ start <+: elem := not_not.mpr starts
      simp only [parseListWithPrefix, collect, named, if_pos starts, if_neg read,
        List.contains_iff_mem]
      by_cases repeated : elem ∈ rcs
      · simp only [if_pos repeated]
      · simp only [if_neg repeated]
        refine ih fun other inside => ?_
        rcases List.mem_append.mp inside with before | here
        · exact all other before
        · rw [List.mem_singleton.mp here]
          exact starts
    · have fresh : elem ∉ rcs := fun inside => starts (all elem inside)
      simp only [parseListWithPrefix, collect, named, List.contains_iff_mem, if_neg fresh,
        if_pos starts, if_neg starts]

end Tokens

/-! ### The list and its devices -/

section Devices
variable (py : Python)

/-- What the variable lists: the longest valid prefix of its tokens. -/
def listed : Option Text → Visible
  | none => .ordinals ((List.range 64).map Int.ofNat)
  | some var =>
    if gcu <+: var then .uuids (validPrefix (named gcu) (tokens var))
    else if mig <+: var then .uuids (validPrefix (named mig) (tokens var))
    else .ordinals (validPrefix (ordinal py) (tokens var))

/-- The tokens of a list of ordinals that are read are spelled. -/
def ReadableVar (var : Option Text) : Prop :=
  ∀ v ∈ var, ¬ gcu <+: v → ¬ mig <+: v → Readable py [] (tokens v)

variable {py}

theorem parseVisibleDevices_eq {var : Option Text} (readable : ReadableVar py var) :
    parseVisibleDevices py var = .ok (listed py var) := by
  cases var with
  | none => rfl
  | some var =>
    have empty (start : Text) : ∀ elem ∈ ([] : List Text), start <+: elem := by simp
    by_cases isGcu : gcu <+: var
    · simp only [parseVisibleDevices, listed, if_pos isGcu, parseListWithPrefix_eq _ (empty gcu),
        collect_nil]
    · by_cases isMig : mig <+: var
      · simp only [parseVisibleDevices, listed, if_neg isGcu, if_pos isMig,
          parseListWithPrefix_eq _ (empty mig), collect_nil]
      · have parsed := parseOrdinals_eq (by simp) (readable var rfl isGcu isMig)
        simp only [parseVisibleDevices, listed, if_neg isGcu, if_neg isMig, parsed, collect_nil]
        rfl

def Visible.IsMig : Visible → Prop
  | .uuids (first :: _) => mig <+: first
  | _ => False

/-- The ids that start with a candidate, with their ordinals. -/
def matching (candidate : Text) (entries : List (Text × Nat)) : List (Text × Nat) :=
  entries.filter fun entry => candidate <+: entry.1

def theOnly : List (Text × Nat) → Option Int
  | [entry] => some entry.2
  | _ => none

/-- The device of which the id starts with a candidate, if there is exactly one. -/
def deviceOf (uuids : List Text) (candidate : Text) : Option Int :=
  theOnly (matching candidate uuids.zipIdx)

def ordinalDevice (uuids : List Text) (x : Int) : Option Int :=
  if x < uuids.length then some x else none

/-- The devices of the list up to the first that does not exist. -/
def existing (uuids : List Text) : Visible → List Int
  | .ordinals list => leading (ordinalDevice uuids) list
  | .uuids list => leading (deviceOf uuids) list

/-- Their number, or 0 when two of them are one device. -/
def count (uuids : List Text) (visible : Visible) : Nat :=
  if (existing uuids visible).Nodup then (existing uuids visible).length else 0

/-- Where indices end: at the end of a list of ordinals, whether or not they are devices. -/
def reach (uuids : List Text) : Visible → Nat
  | .ordinals list => list.length
  | .uuids list => count uuids (.uuids list)

variable {uuids : List Text}

/-- The best match after the ids that match, with the best match before them. -/
def bestOf (bestMatch : Int) : List (Text × Nat) → Int
  | [] => bestMatch
  | entry :: more => if bestMatch = -1 ∧ more = [] then entry.2 else -1

theorem uuidToOrdinal_eq (candidate : Text) (rest : List Text) (idx : Nat) (bestMatch : Int) :
    uuidToOrdinal candidate idx bestMatch rest =
      bestOf bestMatch (matching candidate (rest.zipIdx idx)) := by
  induction rest generalizing idx bestMatch with
  | nil => rfl
  | cons uuid rest ih =>
    by_cases starts : candidate <+: uuid
    · have found : ¬ ((idx : Int) = -1) := by omega
      have matches' : matching candidate ((uuid :: rest).zipIdx idx) =
          (uuid, idx) :: matching candidate (rest.zipIdx (idx + 1)) := by
        simp [matching, starts]
      rw [uuidToOrdinal, if_neg (not_not.mpr starts), matches', ih]
      by_cases first : bestMatch = -1
      · rw [if_neg (not_not.mpr first)]
        cases matching candidate (rest.zipIdx (idx + 1)) <;> simp [bestOf, first, found]
      · rw [if_pos first]
        simp [bestOf, first]
    · have skips : matching candidate ((uuid :: rest).zipIdx idx) =
          matching candidate (rest.zipIdx (idx + 1)) := by
        simp [matching, starts]
      rw [uuidToOrdinal, if_pos starts, skips, ih]

theorem theOnly_eq (entries : List (Text × Nat)) : theOnly entries =
    if bestOf (-1) entries < 0 then none else some (bestOf (-1) entries) := by
  rcases entries with _ | ⟨entry, _ | ⟨next, more⟩⟩ <;> simp [theOnly, bestOf]

theorem deviceOf_eq (candidate : Text) : deviceOf uuids candidate =
    if uuidToOrdinal candidate 0 (-1) uuids < 0 then none
    else some (uuidToOrdinal candidate 0 (-1) uuids) := by
  rw [uuidToOrdinal_eq, deviceOf, theOnly_eq]

theorem transformUuidToOrdinals_eq (rc : List Int) (candidates : List Text) :
    transformUuidToOrdinals uuids rc candidates = collect (deviceOf uuids) rc candidates := by
  induction candidates generalizing rc with
  | nil => rfl
  | cons candidate rest ih =>
    rw [transformUuidToOrdinals, collect, deviceOf_eq]
    by_cases unknown : uuidToOrdinal candidate 0 (-1) uuids < 0
    · simp only [if_pos unknown]
    · simp only [if_neg unknown, ih]

theorem trim_eq (list : List Int) (idx : Nat) :
    trim uuids.length idx list = idx + (leading (ordinalDevice uuids) list).length := by
  induction list generalizing idx with
  | nil => rfl
  | cons x rest ih =>
    by_cases missing : x ≥ uuids.length
    · have beyond : ¬ x < uuids.length := Int.not_lt.mpr missing
      simp [trim, leading, ordinalDevice, missing, beyond]
    · have below : x < uuids.length := Int.not_le.mp missing
      simp only [trim, if_neg missing, ih, leading, ordinalDevice, if_pos below, List.length_cons]
      omega

/-- Ordinals are listed once, and none is negative. -/
def Visible.Proper : Visible → Prop
  | .ordinals list => list.Nodup ∧ ∀ x ∈ list, 0 ≤ x
  | .uuids _ => True

theorem mem_leading {α β : Type} {read : α → Option β} {ts : List α} {x : β}
    (member : x ∈ leading read ts) : ∃ t ∈ ts, read t = some x := by
  induction ts with
  | nil => cases member
  | cons t rest ih =>
    rw [leading] at member
    cases reads : read t with
    | none => simp [reads] at member
    | some y =>
      rw [reads] at member
      rcases List.mem_cons.mp member with rfl | later
      · exact ⟨t, List.mem_cons_self, reads⟩
      · obtain ⟨u, inside, found⟩ := ih later
        exact ⟨u, List.mem_cons_of_mem t inside, found⟩

theorem validPrefix_nodup {α β : Type} [DecidableEq β] (read : α → Option β) (ts : List α) :
    (validPrefix read ts).Nodup := by
  unfold validPrefix
  split
  · next distinct => exact distinct
  · exact List.nodup_nil

theorem mem_validPrefix {α β : Type} [DecidableEq β] {read : α → Option β} {ts : List α}
    {x : β} (member : x ∈ validPrefix read ts) : ∃ t ∈ ts, read t = some x := by
  unfold validPrefix at member
  split at member
  · exact mem_leading member
  · cases member

theorem listed_proper (var : Option Text) : (listed py var).Proper := by
  cases var with
  | none =>
    refine ⟨List.nodup_range.map fun a b same => Int.ofNat.inj same, fun x inside => ?_⟩
    obtain ⟨k, -, rfl⟩ := List.mem_map.mp inside
    exact Int.natCast_nonneg k
  | some var =>
    by_cases isGcu : gcu <+: var
    · simp only [listed, if_pos isGcu]
      trivial
    · by_cases isMig : mig <+: var
      · simp only [listed, if_neg isGcu, if_pos isMig]
        trivial
      · simp only [listed, if_neg isGcu, if_neg isMig]
        refine ⟨validPrefix_nodup _ _, fun x inside => ?_⟩
        obtain ⟨elem, -, read⟩ := mem_validPrefix inside
        unfold ordinal at read
        simp only at read
        split at read
        · cases read
        · rw [← Option.some.inj read]
          exact Int.natCast_nonneg _

theorem leading_ordinalDevice_starts (list : List Int) :
    leading (ordinalDevice uuids) list <+: list := by
  induction list with
  | nil => exact List.prefix_refl []
  | cons x rest ih =>
    rw [leading, ordinalDevice]
    by_cases below : x < uuids.length
    · rw [if_pos below]
      exact (List.prefix_cons_inj x).mpr ih
    · rw [if_neg below]
      exact List.nil_prefix

theorem deviceOf_bounds {candidate : Text} {v : Int} (found : deviceOf uuids candidate = some v) :
    0 ≤ v ∧ v < uuids.length := by
  unfold deviceOf matching at found
  generalize isFilter : uuids.zipIdx.filter (fun entry => candidate <+: entry.1) = entries at found
  rcases entries with _ | ⟨entry, _ | ⟨next, more⟩⟩
  · cases found
  · have inside : entry ∈ uuids.zipIdx :=
      List.mem_of_mem_filter (isFilter ▸ List.mem_singleton_self entry)
    have bound := List.snd_lt_of_mem_zipIdx inside
    have same : (entry.2 : Int) = v := Option.some.inj found
    omega
  · cases found

theorem existing_bounds {visible : Visible} (proper : visible.Proper) :
    ∀ v ∈ existing uuids visible, 0 ≤ v ∧ v < uuids.length := by
  intro v inside
  cases visible with
  | ordinals list =>
    obtain ⟨x, listed, found⟩ := mem_leading inside
    unfold ordinalDevice at found
    split at found
    · next below =>
      rw [← Option.some.inj found]
      exact ⟨proper.2 x listed, below⟩
    · cases found
  | uuids list =>
    obtain ⟨candidate, -, found⟩ := mem_leading inside
    exact deviceOf_bounds found

theorem count_ordinals {list : List Int} (distinct : list.Nodup) :
    count uuids (.ordinals list) = (leading (ordinalDevice uuids) list).length := by
  unfold count existing
  rw [if_pos (distinct.sublist (leading_ordinalDevice_starts list).sublist)]

theorem transform_length (candidates : List Text) :
    (transformUuidToOrdinals uuids [] candidates).length = count uuids (.uuids candidates) := by
  rw [transformUuidToOrdinals_eq, collect_nil, validPrefix, count, existing]
  split <;> rfl

section Answers
variable {var : Option Text} {visible : Visible}

theorem deviceCountEfml_eq (parsed : parseVisibleDevices py var = .ok visible)
    (proper : visible.Proper) (notMig : ¬ visible.IsMig) :
    deviceCountEfml py var (.devices uuids) = .ok (count uuids visible : Int) := by
  rw [deviceCountEfml, parsed]
  cases visible with
  | ordinals list =>
    rw [count_ordinals proper.1]
    cases list with
    | nil => rfl
    | cons first rest =>
      by_cases none : uuids.length = 0
      · have beyond : ¬ first < uuids.length := by
          have := proper.2 first List.mem_cons_self
          omega
        simp only [bind, Except.bind, if_pos none, leading, ordinalDevice, if_neg beyond]
        rfl
      · have trimmed : trim uuids.length 0 (first :: rest) =
            (leading (ordinalDevice uuids) (first :: rest)).length := by
          rw [trim_eq, Nat.zero_add]
        simp only [bind, Except.bind, if_neg none, trimmed]
        rfl
  | uuids list =>
    cases list with
    | nil => simp [bind, Except.bind, pure, Except.pure, count, existing, leading]
    | cons first rest =>
      have isGcu : ¬ mig <+: first := notMig
      simp only [bind, Except.bind, if_neg isGcu, transform_length]
      rfl

theorem deviceAt_eq (list : List Int) (idx : Int) :
    deviceAt list idx = if idx < 0 ∨ idx ≥ list.length then .error (.notVisible idx list)
      else .ok (list.getD idx.toNat 0) := by
  unfold deviceAt
  split
  · rfl
  · next inside =>
    have short : idx.toNat < list.length := by omega
    simp [List.getElem?_eq_getElem short]

/-- The ordinals among which an index is looked up. -/
def lookedUp (uuids : List Text) : Visible → List Int
  | .ordinals list => list
  | .uuids list => validPrefix (deviceOf uuids) list

theorem getEfmlDeviceIndex_eq (parsed : parseVisibleDevices py var = .ok visible)
    (some : visible ≠ .ordinals [] ∧ visible ≠ .uuids []) (idx : Int) :
    getEfmlDeviceIndex py var (.devices uuids) idx = deviceAt (lookedUp uuids visible) idx := by
  rw [getEfmlDeviceIndex, parsed]
  cases visible with
  | ordinals list =>
    cases list with
    | nil => exact absurd rfl some.1
    | cons first rest => rfl
  | uuids list =>
    cases list with
    | nil => exact absurd rfl some.2
    | cons first rest =>
      simp only [bind, Except.bind, lookedUp, ← collect_nil, ← transformUuidToOrdinals_eq]

theorem length_lookedUp (visible : Visible) :
    (lookedUp uuids visible).length = reach uuids visible := by
  cases visible with
  | ordinals list => rfl
  | uuids list =>
    rw [lookedUp, validPrefix, reach, count, existing]
    split <;> rfl

/-- An index below the count finds the device at its place in the list. -/
theorem lookedUp_of_lt (proper : visible.Proper) {k : Nat} (below : k < count uuids visible) :
    ∃ v, (lookedUp uuids visible)[k]? = some v ∧ (existing uuids visible)[k]? = some v := by
  cases visible with
  | ordinals list =>
    rw [count_ordinals proper.1] at below
    have starts : leading (ordinalDevice uuids) list <+: list := leading_ordinalDevice_starts list
    obtain ⟨rest, whole⟩ := starts
    refine ⟨_, ?_, List.getElem?_eq_getElem below⟩
    have same := congrArg (·[k]?) whole
    simp only [List.getElem?_append_left below, List.getElem?_eq_getElem below] at same
    exact same.symm
  | uuids list =>
    unfold count at below
    split at below
    · next distinct =>
      refine ⟨_, ?_, List.getElem?_eq_getElem below⟩
      have distinct' : (leading (deviceOf uuids) list).Nodup := distinct
      rw [lookedUp, validPrefix, if_pos distinct']
      exact List.getElem?_eq_getElem below
    · exact absurd below (Nat.not_lt_zero k)

end Answers

/-- What is listed, how many of the listed devices there are, and which device an index stands for;
an index that is negative, or beyond what is looked up, is refused. -/
theorem visible_devices_agree (py : Python) (var : Option Text) (uuids : List Text)
    (readable : ReadableVar py var) :
    parseVisibleDevices py var = .ok (listed py var) ∧
      (¬ (listed py var).IsMig →
        deviceCountEfml py var (.devices uuids) = .ok (count uuids (listed py var) : Int) ∧
        (∀ i : Int, 0 ≤ i → i < count uuids (listed py var) →
          ∃ v, getEfmlDeviceIndex py var (.devices uuids) i = .ok v ∧
            (existing uuids (listed py var))[i.toNat]? = some v ∧ 0 ≤ v ∧ v < uuids.length) ∧
        ∀ i : Int, listed py var ≠ .ordinals [] ∧ listed py var ≠ .uuids [] →
          i < 0 ∨ (reach uuids (listed py var) : Int) ≤ i →
          ∃ visible,
            getEfmlDeviceIndex py var (.devices uuids) i = .error (.notVisible i visible)) := by
  have parsed := parseVisibleDevices_eq readable
  have proper : (listed py var).Proper := listed_proper var
  refine ⟨parsed, fun notMig => ⟨deviceCountEfml_eq parsed proper notMig, ?_, ?_⟩⟩
  · intro i least below
    have place : i.toNat < count uuids (listed py var) := by omega
    obtain ⟨v, looked, isThere⟩ := lookedUp_of_lt proper place
    have bounds := existing_bounds proper v (List.mem_of_getElem? isThere)
    have short := (List.getElem?_eq_some_iff.mp looked).1
    have some : listed py var ≠ .ordinals [] ∧ listed py var ≠ .uuids [] := by
      constructor <;> intro none <;> rw [none] at place <;>
        simp [count, existing, leading] at place
    refine ⟨v, ?_, isThere, bounds⟩
    rw [getEfmlDeviceIndex_eq parsed some, deviceAt_eq, if_neg (by omega)]
    simp [List.getD_eq_getElem?_getD, looked]
  · intro i some outside
    refine ⟨lookedUp uuids (listed py var), ?_⟩
    rw [getEfmlDeviceIndex_eq parsed some, deviceAt_eq, length_lookedUp, if_pos outside]

/-- An interpreter that knows the ASCII digits and blanks, and a superscript. -/
def ascii : Python where
  isDigit c := c.isDigit || c = '²'
  decimal c := if c.isDigit then some (c.toNat - 48) else none
  isSpace c := c.isWhitespace
  maxStrDigits := some 4300

theorem visible_devices_agree_two :
    parseVisibleDevices ascii (some ['1', ',', '0']) = .ok (.ordinals [1, 0]) ∧
      deviceCountEfml ascii (some ['1', ',', '0']) (.devices [['a'], ['b']]) = .ok 2 := by
  have few (most : Nat) (limit : most ∈ ascii.maxStrDigits) : 1 ≤ most := by
    obtain rfl := Option.some.inj limit
    exact Nat.le_of_ble_eq_true rfl
  have readable : ReadableVar ascii (some ['1', ',', '0']) := by
    intro v isVar _ _
    obtain rfl : ['1', ',', '0'] = v := Option.some.inj isVar
    have one : Spelled ascii ['1'] := .inr ⟨by decide, List.forall_mem_singleton.mpr rfl, few⟩
    have zero : Spelled ascii ['0'] := .inr ⟨by decide, List.forall_mem_singleton.mpr rfl, few⟩
    exact ⟨one, fun _ _ _ => ⟨zero, fun _ _ _ => trivial⟩⟩
  obtain ⟨parsed, agree⟩ :=
    visible_devices_agree ascii (some ['1', ',', '0']) [['a'], ['b']] readable
  refine ⟨parsed.trans (by rfl), (agree ?_).1.trans (by rfl)⟩
  exact id

/-- Two prefixes of one id: each matches exactly one device, and there are none. -/
theorem prefixes_of_one_device :
    ¬ ∀ py var uuids, ¬ (listed py var).IsMig →
      deviceCountEfml py var (.devices uuids) =
        .ok ((existing uuids (listed py var)).length : Int) := by
  intro counts
  have two := counts ascii (some (gcu ++ ['1', ','] ++ gcu ++ ['1', '2']))
    [gcu ++ ['1', '2', '3']] (show ¬ mig <+: gcu ++ ['1'] by decide)
  have zero : deviceCountEfml ascii (some (gcu ++ ['1', ','] ++ gcu ++ ['1', '2']))
    (.devices [gcu ++ ['1', '2', '3']]) = .ok 0 := by rfl
  rw [zero] at two
  cases two

end Devices

end TorchGcu.VisibleDevices

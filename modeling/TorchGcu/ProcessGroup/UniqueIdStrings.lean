import Mathlib.Tactic.Common
import Mathlib.Logic.Function.Basic
import TorchGcu.Logic.DigitWords

/-! The strings under which communicators are recorded for their ids. A byte is written with as
many hexadecimal digits as it needs, so that two ids can be spelled alike. -/
namespace TorchGcu.UniqueIdStrings
open ProgramLogic.DigitWords

structure EcclUniqueId (ECCL_UNIQUE_ID_BYTES : Nat) where
  bytes : List UInt8
  size : bytes.length = ECCL_UNIQUE_ID_BYTES
deriving DecidableEq

variable {ECCL_UNIQUE_ID_BYTES : Nat}

/-- What `oss << std::hex` appends, which has no width and no fill. -/
def hex (byte : UInt8) : String := String.ofList (Nat.toDigits 16 byte.toNat)

def buildEcclUniqueIdStr (ecclID : EcclUniqueId ECCL_UNIQUE_ID_BYTES) : String :=
  ecclID.bytes.foldl (fun oss byte => oss ++ hex byte) ""

/-- A communicator by the pointer to it. -/
structure ECCLComm where
  pointer : Nat
deriving DecidableEq

abbrev EcclIdToCommMap := String → Option ECCLComm

/-- `std::unordered_map::emplace`, which leaves what is already there. -/
def EcclIdToCommMap.emplace (map : EcclIdToCommMap) (key : String) (comm : ECCLComm) :
    EcclIdToCommMap :=
  if (map key).isSome then map else Function.update map key (some comm)

/-- `ecclIdToCommMap_` after `getECCLComm` has made these communicators, one after another. -/
def ecclIdToCommMap (made : List (EcclUniqueId ECCL_UNIQUE_ID_BYTES × ECCLComm)) : EcclIdToCommMap :=
  made.foldl (fun map entry => map.emplace (buildEcclUniqueIdStr entry.1) entry.2) fun _ => none

/-- The first communicator that was made for an id. -/
def commOf (ecclID : EcclUniqueId ECCL_UNIQUE_ID_BYTES)
    (made : List (EcclUniqueId ECCL_UNIQUE_ID_BYTES × ECCLComm)) : Option ECCLComm :=
  (made.find? fun entry => entry.1 = ecclID).map (·.2)

/-- Each byte of one digit is zero or the last, and the byte before it ends in the digit 0. -/
def Apart : UInt8 → List UInt8 → Prop
  | _, [] => True
  | before, byte :: rest =>
    (byte.toNat < 16 → (rest = [] ∨ byte = 0) ∧ before.toNat % 16 = 0) ∧ Apart byte rest

/-- All bytes have one digit, or those of one digit stand apart. -/
def EcclUniqueId.Unambiguous (ecclID : EcclUniqueId ECCL_UNIQUE_ID_BYTES) : Prop :=
  (∀ byte ∈ ecclID.bytes, byte.toNat < 16) ∨ Apart 0 ecclID.bytes

/-! ### Bytes as words of digits -/

abbrev Hex := Word fun digit : Fin 16 => digit ≠ 0

def high (byte : UInt8) : Fin 16 := Fin.ofNat 16 (byte.toNat / 16)

def low (byte : UInt8) : Fin 16 := Fin.ofNat 16 byte.toNat

def word (byte : UInt8) : Hex :=
  if small : high byte = 0 then .one (low byte) else .two (high byte) (low byte) small

def byte : Hex → UInt8
  | .one digit => UInt8.ofNat digit.val
  | .two first second _ => UInt8.ofNat (16 * first.val + second.val)

def hexDigit (digit : Fin 16) : Char := Nat.digitChar digit.val

theorem hexDigit_injective : Function.Injective hexDigit := by
  unfold Function.Injective
  decide

@[simp] theorem val_high (b : UInt8) : (high b).val = b.toNat / 16 % 16 := rfl

@[simp] theorem val_low (b : UInt8) : (low b).val = b.toNat % 16 := rfl

theorem high_eq_zero (b : UInt8) : high b = 0 ↔ b.toNat < 16 := by
  have bound := b.toNat_lt
  rw [Fin.ext_iff]
  rw [val_high, Fin.val_zero]
  omega

theorem low_eq_zero (b : UInt8) : low b = 0 ↔ b.toNat % 16 = 0 := by
  rw [Fin.ext_iff, val_low, Fin.val_zero]

theorem word_one {b : UInt8} (small : b.toNat < 16) : word b = .one (low b) :=
  dif_pos ((high_eq_zero b).mpr small)

theorem word_two {b : UInt8} (large : ¬ b.toNat < 16) :
    word b = .two (high b) (low b) ((high_eq_zero b).not.mpr large) :=
  dif_neg ((high_eq_zero b).not.mpr large)

theorem byte_word (b : UInt8) : byte (word b) = b := by
  apply UInt8.toNat_inj.mp
  have bound := b.toNat_lt
  by_cases small : b.toNat < 16
  · simp only [word_one small, byte, val_low, UInt8.toNat_ofNat']
    omega
  · simp only [word_two small, byte, val_high, val_low, UInt8.toNat_ofNat']
    omega

theorem word_byte (w : Hex) : word (byte w) = w := by
  cases w with
  | one digit =>
    have value : (byte (.one digit)).toNat = digit.val := by
      simp only [byte, UInt8.toNat_ofNat']
      omega
    have small : (byte (.one digit : Hex)).toNat < 16 := by omega
    rw [word_one small]
    exact congrArg Word.one (Fin.ext (by simp [value, Nat.mod_eq_of_lt digit.isLt]))
  | two first second leading =>
    have value : (byte (.two first second leading)).toNat = 16 * first.val + second.val := by
      simp only [byte, UInt8.toNat_ofNat']
      omega
    have positive : first.val ≠ 0 := fun zero => leading (Fin.ext zero)
    rw [word_two (by omega), Word.two.injEq]
    constructor
    · apply Fin.ext
      rw [val_high, value]
      omega
    · apply Fin.ext
      rw [val_low, value]
      omega

theorem word_injective : Function.Injective word := Function.LeftInverse.injective byte_word

theorem toList_hex (b : UInt8) : (hex b).toList = (word b).digits.map hexDigit := by
  have bound := b.toNat_lt
  rw [hex, String.toList_ofList]
  by_cases small : b.toNat < 16
  · rw [Nat.toDigits_of_lt_base small, word_one small]
    simp only [Word.digits, List.map_cons, List.map_nil, hexDigit, val_low,
      Nat.mod_eq_of_lt small]
  · have first : b.toNat / 16 < 16 := by omega
    rw [Nat.toDigits_of_base_le (by decide) (by omega), Nat.toDigits_of_lt_base first,
      word_two small]
    simp only [Word.digits, List.map_cons, List.map_nil, hexDigit, val_high, val_low,
      Nat.mod_eq_of_lt first, List.cons_append, List.nil_append]

theorem toList_foldl_hex (bytes : List UInt8) (oss : String) :
    (bytes.foldl (fun oss byte => oss ++ hex byte) oss).toList =
      oss.toList ++ (digits (bytes.map word)).map hexDigit := by
  induction bytes generalizing oss with
  | nil => simp
  | cons b rest ih =>
    rw [List.foldl_cons, ih, String.toList_append, toList_hex, List.map_cons, List.append_assoc,
      ← List.map_append]
    rfl

/-! ### Ids that are spelled alike -/

variable {ecclID other : EcclUniqueId ECCL_UNIQUE_ID_BYTES} {ecclComm : ECCLComm} {map : EcclIdToCommMap}
variable {made : List (EcclUniqueId ECCL_UNIQUE_ID_BYTES × ECCLComm)}

def EcclUniqueId.words (ecclID : EcclUniqueId ECCL_UNIQUE_ID_BYTES) : List Hex := ecclID.bytes.map word

@[ext] theorem EcclUniqueId.ext (same : ecclID.bytes = other.bytes) : ecclID = other := by
  cases ecclID
  cases other
  cases same
  rfl

theorem EcclUniqueId.words_injective (same : ecclID.words = other.words) : ecclID = other :=
  EcclUniqueId.ext (List.map_injective_iff.mpr word_injective same)

theorem EcclUniqueId.length_words (ecclID : EcclUniqueId ECCL_UNIQUE_ID_BYTES) :
    ecclID.words.length = ECCL_UNIQUE_ID_BYTES := by
  rw [words, List.length_map, ecclID.size]

/-- Every list of as many words is that of an id. -/
theorem EcclUniqueId.exists_words {words : List Hex} (each : words.length = ECCL_UNIQUE_ID_BYTES) :
    ∃ ecclID : EcclUniqueId ECCL_UNIQUE_ID_BYTES, ecclID.words = words := by
  refine ⟨⟨words.map byte, by rw [List.length_map, each]⟩, ?_⟩
  rw [EcclUniqueId.words, List.map_map]
  exact (List.map_congr_left fun w _ => word_byte w).trans (List.map_id words)

theorem buildEcclUniqueIdStr_inj : buildEcclUniqueIdStr ecclID = buildEcclUniqueIdStr other ↔
    digits ecclID.words = digits other.words := by
  have spelled (id : EcclUniqueId ECCL_UNIQUE_ID_BYTES) :
      (buildEcclUniqueIdStr id).toList = (digits id.words).map hexDigit :=
    toList_foldl_hex id.bytes ""
  rw [← String.toList_inj, spelled, spelled]
  exact (List.map_injective_iff.mpr hexDigit_injective).eq_iff

theorem isOne_word (b : UInt8) : (word b).isOne = true ↔ b.toNat < 16 := by
  by_cases small : b.toNat < 16
  · simp [word_one small, Word.isOne, small]
  · simp [word_two small, Word.isOne, small]

theorem word_isolated (before : UInt8) (bytes : List UInt8) :
    Isolated (some (low before)) (bytes.map word) ↔ Apart before bytes := by
  induction bytes generalizing before with
  | nil => exact Iff.rfl
  | cons b rest ih =>
    rw [List.map_cons, Apart, ← ih b]
    by_cases small : b.toNat < 16
    · have zero : ¬ low b ≠ 0 ↔ b = 0 := by
        rw [not_not, low_eq_zero, ← UInt8.toNat_inj, Nat.mod_eq_of_lt small]
        rfl
      rw [word_one small]
      simp only [Isolated, List.map_eq_nil_iff, zero, Option.mem_def, Option.some.injEq,
        forall_eq', not_not, low_eq_zero, small, forall_const, and_assoc]
    · rw [word_two small]
      simp only [Isolated, small, false_imp_iff, true_and]

theorem isolated_none (bytes : List UInt8) :
    Isolated none (bytes.map word) ↔ Apart 0 bytes := by
  rw [← word_isolated]
  cases bytes with
  | nil => exact Iff.rfl
  | cons b rest =>
    have zero : low 0 = 0 := rfl
    by_cases small : b.toNat < 16
    · simp [word_one small, Isolated, zero]
    · simp [word_two small, Isolated]

theorem unambiguous_iff (ecclID : EcclUniqueId ECCL_UNIQUE_ID_BYTES) : ecclID.Unambiguous ↔
    (∀ w ∈ ecclID.words, w.isOne = true) ∨ Isolated none ecclID.words := by
  rw [EcclUniqueId.Unambiguous, EcclUniqueId.words, isolated_none, List.forall_mem_map]
  simp only [isOne_word]

theorem buildEcclUniqueIdStr_unique_iff (ecclID : EcclUniqueId ECCL_UNIQUE_ID_BYTES) :
    (∀ other, buildEcclUniqueIdStr other = buildEcclUniqueIdStr ecclID → other = ecclID) ↔
      ecclID.Unambiguous := by
  rw [unambiguous_iff, ← unique_iff]
  constructor
  · intro unique others same each
    obtain ⟨other, rfl⟩ := EcclUniqueId.exists_words (each.trans ecclID.length_words)
    rw [unique other (buildEcclUniqueIdStr_inj.mpr same)]
  · intro unique other same
    exact EcclUniqueId.words_injective (unique other.words (buildEcclUniqueIdStr_inj.mp same)
      (other.length_words.trans ecclID.length_words.symm))

/-! ### What is recorded under a key -/

/-- The first communicator that was made for an id spelled so. -/
def commAt (key : String) (made : List (EcclUniqueId ECCL_UNIQUE_ID_BYTES × ECCLComm)) :
    Option ECCLComm :=
  (made.find? fun entry => buildEcclUniqueIdStr entry.1 = key).map (·.2)

theorem emplace_at (key : String) : map.emplace (buildEcclUniqueIdStr ecclID) ecclComm key =
    (map key).or (if buildEcclUniqueIdStr ecclID = key then some ecclComm else none) := by
  unfold EcclIdToCommMap.emplace
  by_cases same : buildEcclUniqueIdStr ecclID = key
  · subst same
    cases here : map (buildEcclUniqueIdStr ecclID) <;> simp [here]
  · rw [if_neg same, Option.or_none]
    split
    · rfl
    · rw [Function.update_of_ne (Ne.symm same)]

theorem foldl_emplace_at (key : String) :
    made.foldl (fun map entry => map.emplace (buildEcclUniqueIdStr entry.1) entry.2) map key =
      (map key).or (commAt key made) := by
  induction made generalizing map with
  | nil => simp [commAt]
  | cons entry rest ih =>
    obtain ⟨id, comm⟩ := entry
    rw [List.foldl_cons, ih, emplace_at, Option.or_assoc]
    by_cases same : buildEcclUniqueIdStr id = key
    · simp [commAt, same]
    · simp [commAt, same]

theorem ecclIdToCommMap_at (key : String) : ecclIdToCommMap made key = commAt key made := by
  rw [ecclIdToCommMap, foldl_emplace_at, Option.none_or]

/-- An id has its own string, and under it its own communicator, exactly when it is
unambiguous. -/
theorem own_key_iff (ecclID : EcclUniqueId ECCL_UNIQUE_ID_BYTES) :
    ((∀ other, buildEcclUniqueIdStr other = buildEcclUniqueIdStr ecclID → other = ecclID) ↔
      ecclID.Unambiguous) ∧
    ((∀ made, ecclIdToCommMap made (buildEcclUniqueIdStr ecclID) = commOf ecclID made) ↔
      ecclID.Unambiguous) := by
  have unique := buildEcclUniqueIdStr_unique_iff ecclID
  refine ⟨unique, ?_⟩
  rw [← unique]
  simp only [ecclIdToCommMap_at]
  constructor
  · intro own other same
    have first := own [(other, ⟨0⟩)]
    by_contra different
    simp [commAt, commOf, same, different] at first
  · intro only made
    have sameTest : (fun entry : EcclUniqueId ECCL_UNIQUE_ID_BYTES × ECCLComm =>
        decide (buildEcclUniqueIdStr entry.1 = buildEcclUniqueIdStr ecclID)) =
        fun entry => decide (entry.1 = ecclID) := by
      funext entry
      exact decide_eq_decide.mpr ⟨only entry.1, fun same => congrArg _ same⟩
    rw [commAt, commOf, sameTest]

def startingWith (first second : UInt8) : EcclUniqueId 128 where
  bytes := first :: second :: List.replicate 126 0
  size := rfl

/-- `01 11` and `11 01` are both spelled `111`. -/
theorem spelled_alike :
    ¬ ∀ a b : EcclUniqueId 128, buildEcclUniqueIdStr a = buildEcclUniqueIdStr b → a = b := by
  intro distinct
  have same : buildEcclUniqueIdStr (startingWith 0x01 0x11) =
      buildEcclUniqueIdStr (startingWith 0x11 0x01) := by
    rw [buildEcclUniqueIdStr_inj]
    decide +kernel
  have bytes := congrArg EcclUniqueId.bytes (distinct _ _ same)
  cases (List.cons.inj bytes).1

end TorchGcu.UniqueIdStrings

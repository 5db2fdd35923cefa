import Mathlib.Data.List.Basic

/-! The strings under which communicators are cached and their ids published. A decimal
number names a device or the value of a counter, and `low:high` a pair of ranks; no two of
them are spelled alike. -/
namespace TorchGcu.ProcessGroup

/-- `getKeyFromDevice`, of a device by its index. -/
def getKeyFromDevice (device : Nat) : String := toString device

def getKeySendRecv (myRank peer : Nat) : String :=
  let lowRank := if myRank < peer then myRank else peer
  let highRank := if myRank < peer then peer else myRank
  toString lowRank ++ ":" ++ toString highRank

/-- The store key of the communicator that takes this number. -/
def counterKey (ecclCommCounter : Nat) : String := toString ecclCommCounter

theorem toString_injective {m n : Nat} (same : toString m = toString n) : m = n := by
  have digits : Nat.toDigits 10 m = Nat.toDigits 10 n := by
    simpa only [Nat.toString_eq_ofList_toDigits, String.ofList_inj] using same
  have value := congrArg (Nat.ofDigitChars 10 · 0) digits
  simpa only [Nat.ofDigitChars_toDigits (by decide : 1 < 10) (by decide : 10 ≤ 10)] using value

theorem colon_not_mem_toDigits (n : Nat) : ':' ∉ Nat.toDigits 10 n := by
  intro member
  have digit := Nat.isDigit_of_mem_toDigits (by decide) (by decide) member
  exact absurd digit (by decide)

theorem toList_toString (n : Nat) : (toString n).toList = Nat.toDigits 10 n := by
  rw [Nat.toString_eq_repr, Nat.toList_repr]

theorem toList_pair (low high : Nat) : (toString low ++ ":" ++ toString high).toList =
    Nat.toDigits 10 low ++ ':' :: Nat.toDigits 10 high := by
  simp [String.toList_append]

theorem number_ne_pair (n low high : Nat) :
    toString n ≠ toString low ++ ":" ++ toString high := by
  intro same
  have digits := congrArg String.toList same
  rw [toList_toString, toList_pair] at digits
  exact colon_not_mem_toDigits n (digits ▸ List.mem_append_right _ List.mem_cons_self)

theorem pair_injective {low high low' high' : Nat}
    (same : toString low ++ ":" ++ toString high = toString low' ++ ":" ++ toString high') :
    low = low' ∧ high = high' := by
  have digits := congrArg String.toList same
  rw [toList_pair, toList_pair, List.append_cons_inj_of_notMem (colon_not_mem_toDigits _)
    (colon_not_mem_toDigits _)] at digits
  constructor
  · apply toString_injective
    rw [Nat.toString_eq_ofList_toDigits, Nat.toString_eq_ofList_toDigits, digits.1]
  · apply toString_injective
    rw [Nat.toString_eq_ofList_toDigits, Nat.toString_eq_ofList_toDigits, digits.2.2]

variable {device device' rank peer rank' peer' n : Nat}

theorem getKeyFromDevice_ne_sendRecv : getKeyFromDevice device ≠ getKeySendRecv rank peer :=
  number_ne_pair _ _ _

theorem counterKey_ne_sendRecv : counterKey n ≠ getKeySendRecv rank peer := number_ne_pair _ _ _

theorem counterKey_injective {m : Nat} (same : counterKey m = counterKey n) : m = n :=
  toString_injective same

/-- A key of a pair determines the pair, up to its order. -/
theorem getKeySendRecv_inj (same : getKeySendRecv rank peer = getKeySendRecv rank' peer') :
    rank = rank' ∧ peer = peer' ∨ rank = peer' ∧ peer = rank' := by
  have ⟨low, high⟩ := pair_injective same
  by_cases less : rank < peer <;> by_cases less' : rank' < peer' <;>
    simp only [less, less', if_true, if_false] at low high <;> omega

end TorchGcu.ProcessGroup

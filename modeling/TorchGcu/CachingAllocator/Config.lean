import Mathlib.Data.Rat.Floor
import Mathlib.Data.Nat.Bitwise
import Mathlib.Data.Nat.ModEq

/-! Allocator settings and the size arithmetic of the caching allocator. Sizes and
addresses are 64-bit words kept as natural numbers; every operation of the source
that can wrap does so here. -/
namespace TorchGcu.GCUCachingAllocator

def sizeMax : Nat := 2 ^ 64 - 1

def sizeAdd (a b : Nat) : Nat := (a + b) % 2 ^ 64

def sizeSub (a b : Nat) : Nat := (a + (2 ^ 64 - b)) % 2 ^ 64

theorem sizeAdd_of_lt {a b : Nat} (fits : a + b < 2 ^ 64) : sizeAdd a b = a + b :=
  Nat.mod_eq_of_lt fits

theorem sizeSub_of_le {a b : Nat} (le : b ≤ a) (fits : a < 2 ^ 64) : sizeSub a b = a - b := by
  unfold sizeSub
  have split : a + (2 ^ 64 - b) = (a - b) + 2 ^ 64 := by omega
  rw [split, Nat.add_mod_right]
  exact Nat.mod_eq_of_lt (by omega)

theorem sizeAdd_modEq (a b : Nat) : sizeAdd a b ≡ a + b [MOD 2 ^ 64] := Nat.mod_modEq _ _

theorem sizeSub_modEq (a : Nat) {b : Nat} (word : b < 2 ^ 64) :
    b + sizeSub a b ≡ a [MOD 2 ^ 64] := by
  have wrapped : b + (a + (2 ^ 64 - b)) = a + 2 ^ 64 := by omega
  have added : b + sizeSub a b ≡ b + (a + (2 ^ 64 - b)) [MOD 2 ^ 64] :=
    (Nat.mod_modEq _ _).add_left b
  rw [wrapped] at added
  exact added.trans Nat.add_modEq_right

theorem sizeSub_lt (a b : Nat) : sizeSub a b < 2 ^ 64 := Nat.mod_lt _ (by decide)

/-- All sizes are rounded to at least 512 bytes. -/
def kMinBlockSize : Nat := 512
/-- Largest "small" allocation. -/
def kSmallSize : Nat := 1048576
/-- "Small" allocations are packed in 2 MiB blocks. -/
def kSmallBuffer : Nat := 2097152
/-- "Large" allocations may be packed in 20 MiB blocks. -/
def kLargeBuffer : Nat := 20971520
/-- Allocations between 1 and 10 MiB may use `kLargeBuffer`. -/
def kMinLargeAlloc : Nat := 10485760
/-- Large allocations are rounded up to 2 MiB. -/
def kRoundLarge : Nat := 2097152

def kRoundUpPowerOfTwoIntervals : Nat := 16

/-- The settings the allocator reads. The threshold is a double in the source; a
double is a rational, and its product with a limit is taken exactly. -/
structure GCUAllocatorConfig where
  maxSplitSize : Nat := sizeMax
  roundupPower2Divisions : List Nat := List.replicate kRoundUpPowerOfTwoIntervals 0
  garbageCollectionThreshold : ℚ := 0
  releaseLockOnTopsmalloc : Bool := false

/-- What `parseArgs` leaves in `max_split_size`: the default, or a whole number of
MiB above `kLargeBuffer`. -/
def GCUAllocatorConfig.Parsed (cfg : GCUAllocatorConfig) : Prop :=
  cfg.maxSplitSize = sizeMax ∨
    ∃ mb, kLargeBuffer / (1024 * 1024) < mb ∧ mb ≤ sizeMax / (1024 * 1024) ∧
      cfg.maxSplitSize = mb * 1024 * 1024

/-- `GCUAllocatorConfig::roundup_power2_divisions`: intervals from 1 MiB to 64 GiB. -/
def GCUAllocatorConfig.roundupPower2DivisionsOf (cfg : GCUAllocatorConfig) (size : Nat) : Nat :=
  let logSize : Int := Nat.log2 size
  let intervalStart : Int := Nat.log2 1048576
  let index := max 0 (logSize - intervalStart)
  let index := min index (kRoundUpPowerOfTwoIntervals - 1)
  cfg.roundupPower2Divisions.getD index.toNat 0

def isPowerOf2 (size : Nat) : Bool := decide (0 < size) && (size &&& (size - 1)) == 0

/-- Round up to the next of `divisions` equal steps between two powers of two. -/
def roundupPower2NextDivision (size divisions : Nat) : Nat :=
  if size ≤ 4 ∨ divisions ≤ 1 then size
  else if isPowerOf2 size then size
  else
    let power2Floor := 2 ^ Nat.log2 size
    let power2Division := power2Floor >>> Nat.log2 divisions
    if power2Division = 0 then (power2Floor <<< 1) % 2 ^ 64
    else
      let roundSizeFloor := size &&& (sizeMax - (power2Division - 1))
      if roundSizeFloor = size then size else sizeAdd roundSizeFloor power2Division

def roundSize (cfg : GCUAllocatorConfig) (size : Nat) : Nat :=
  if size < kMinBlockSize then kMinBlockSize
  else
    let divisions := cfg.roundupPower2DivisionsOf size
    if 0 < divisions ∧ kMinBlockSize * divisions < size then
      roundupPower2NextDivision size divisions
    else kMinBlockSize * (sizeAdd size (kMinBlockSize - 1) / kMinBlockSize)

def getAllocationSize (size : Nat) : Nat :=
  if size ≤ kSmallSize then kSmallBuffer
  else if size < kMinLargeAlloc then kLargeBuffer
  else kRoundLarge * (sizeAdd size (kRoundLarge - 1) / kRoundLarge)

theorem roundupPower2NextDivision_pos {size : Nat} (divisions : Nat) (positive : 0 < size)
    (small : size < 2 ^ 60) : 0 < roundupPower2NextDivision size divisions := by
  have floorLe : 2 ^ Nat.log2 size ≤ size := Nat.log2_self_le (by omega)
  have floorPos : 0 < 2 ^ Nat.log2 size := Nat.two_pow_pos _
  have stepLe : 2 ^ Nat.log2 size >>> Nat.log2 divisions ≤ 2 ^ Nat.log2 size := by
    rw [Nat.shiftRight_eq_div_pow]
    exact Nat.div_le_self _ _
  simp only [roundupPower2NextDivision]
  generalize 2 ^ Nat.log2 size >>> Nat.log2 divisions = step at *
  split
  · exact positive
  split
  · exact positive
  split
  · rw [Nat.shiftLeft_eq, Nat.mod_eq_of_lt (by omega)]
    omega
  split
  · exact positive
  · have floorAnd : size &&& (sizeMax - (step - 1)) ≤ size := Nat.and_le_left
    rw [sizeAdd_of_lt (by omega)]
    omega

/-- A request below 2^60 rounds to a positive size, whatever the divisions are. -/
theorem roundSize_pos (cfg : GCUAllocatorConfig) {size : Nat} (small : size < 2 ^ 60) :
    0 < roundSize cfg size := by
  simp only [roundSize]
  split
  · decide
  · rename_i large
    have bound : 512 ≤ size := by simpa only [kMinBlockSize, Nat.not_lt] using large
    split
    · exact roundupPower2NextDivision_pos _ (by omega) small
    · simp only [kMinBlockSize]
      rw [sizeAdd_of_lt (by omega)]
      omega

theorem sizeAdd_lt (a b : Nat) : sizeAdd a b < 2 ^ 64 := Nat.mod_lt _ (by decide)

theorem roundupPower2NextDivision_lt {size : Nat} (divisions : Nat) (word : size < 2 ^ 64) :
    roundupPower2NextDivision size divisions < 2 ^ 64 := by
  simp only [roundupPower2NextDivision]
  split
  · exact word
  split
  · exact word
  split
  · exact Nat.mod_lt _ (by decide)
  split
  · exact word
  · exact sizeAdd_lt _ _

theorem roundSize_lt (cfg : GCUAllocatorConfig) {size : Nat} (word : size < 2 ^ 64) :
    roundSize cfg size < 2 ^ 64 := by
  simp only [roundSize]
  split
  · decide
  split
  · exact roundupPower2NextDivision_lt _ word
  · have rounded := sizeAdd_lt size (kMinBlockSize - 1)
    exact (Nat.mul_div_le _ _).trans_lt rounded

/-- A segment is as large as the request it is made for, unless its size wraps to nothing. -/
theorem le_getAllocationSize {size : Nat} (word : size < 2 ^ 64)
    (positive : 0 < getAllocationSize size) : size ≤ getAllocationSize size := by
  unfold getAllocationSize kSmallSize kSmallBuffer kMinLargeAlloc kLargeBuffer kRoundLarge
    at positive ⊢
  by_cases small : size ≤ 1048576
  · rw [if_pos small]
    omega
  by_cases medium : size < 10485760
  · rw [if_neg small, if_pos medium]
    omega
  rw [if_neg small, if_neg medium] at positive ⊢
  by_cases fits : size + (2097152 - 1) < 2 ^ 64
  · rw [sizeAdd_of_lt fits]
    omega
  · have wrapped : sizeAdd size (2097152 - 1) < 2097152 := by
      unfold sizeAdd
      omega
    rw [Nat.div_eq_of_lt wrapped] at positive
    omega

end TorchGcu.GCUCachingAllocator

import TorchGcu.Logic.GridStride
import Mathlib.Algebra.Order.Ring.Nat

/-! The grids that the Inductor backend launches, and the blocks that the programs of a grid visit:
the first come from the configuration, the second from the loops emitted into the kernel. -/
namespace TorchGcu.Inductor
open ProgramLogic

/-! ### Grid code -/

/-- What a grid is given as: an integer, or the text of an expression in the numels. -/
inductive GridExpr where
  | int (n : Int)
  | name (numel : String)
  | neg (e : GridExpr)
  | floorDiv (e block : GridExpr)
deriving DecidableEq, Repr

inductive PyError where
  | recursionError
  | zeroDivisionError
deriving DecidableEq, Repr

/-- Two integers are handed to the function itself, which hides the imported one of its name. -/
def ceildiv (numel : GridExpr) (block : Option GridExpr) : Except PyError GridExpr :=
  match numel, block with
  | numel, none => .ok numel
  | numel, some (.int 1) => .ok numel
  | .int _, some (.int _) => .error .recursionError
  | numel, some block => .ok (.neg (.floorDiv numel (.neg block)))

def gcuGetGridDim (numel : Option GridExpr) (block : Option GridExpr) : Except PyError GridExpr :=
  match numel with
  | none => .ok (.int 1)
  | some numel =>
    match block with
    | none => .ok numel
    | some block => ceildiv numel (some block)

/-- A configuration: the blocks are powers of two, and there is at least one warp. -/
structure Meta where
  xBlock : Option Nat := none
  yBlock : Option Nat := none
  zBlock : Option Nat := none
  r0Block : Option Nat := none
  numWarps : Option Nat := none
  blocks : ∀ block ∈ [xBlock, yBlock, zBlock], block ≠ some 0 := by decide
  warps : numWarps ≠ some 0 := by decide

def block (n : Nat) : GridExpr := .int n

/-- `MAX_GRID_SIZE_GCU["Y"]`. -/
def getMaxYGrid : GridExpr := .int 255

def gcuGrid1DGenerate (meta_ : Meta) : Except PyError GridExpr :=
  let numWarps := meta_.numWarps.getD 1
  if meta_.r0Block = none ∧ 24 < meta_.xBlock.getD 1 then .ok (.int (24 / numWarps))
  else gcuGetGridDim (some (.name "xnumel")) (some (block (meta_.xBlock.getD 1)))

def gcuGrid2DGenerate (meta_ : Meta) : Except PyError (GridExpr × GridExpr) := do
  let xGrid ← gcuGrid1DGenerate meta_
  let yGrid ← gcuGetGridDim (some (.name "ynumel")) (meta_.yBlock.map block)
  let div ← ceildiv yGrid (some getMaxYGrid)
  let yGrid ← ceildiv yGrid (some div)
  return (xGrid, yGrid)

def gcuGrid3DGenerate (meta_ : Meta) : Except PyError (GridExpr × GridExpr × GridExpr) := do
  let (xGrid, yGrid) ← gcuGrid2DGenerate meta_
  let zGrid ← ceildiv (.name "znumel") (meta_.zBlock.map block)
  return (xGrid, yGrid, zGrid)

/-! ### Kernels -/

inductive Kernel where
  | pointwise1D
  | pointwise2D
  | pointwise3D
  | reduction
  | persistentReduction
deriving DecidableEq, Repr

/-- `_get_heuristic`. -/
def Kernel.heuristic : Kernel → String
  | .pointwise1D | .pointwise2D | .pointwise3D => "pointwise"
  | .reduction => "reduction"
  | .persistentReduction => "persistent_reduction"

/-- The numels of the dimensions and of the reduction. -/
def Kernel.numels : Kernel → List String
  | .pointwise1D | .reduction | .persistentReduction => ["x", "r0_"]
  | .pointwise2D => ["y", "x", "r0_"]
  | .pointwise3D => ["z", "y", "x", "r0_"]

/-- The grid class of a kernel; dimensions that it has not are 1. -/
def Kernel.generate (kernel : Kernel) (meta_ : Meta) :
    Except PyError (GridExpr × GridExpr × GridExpr) :=
  match kernel with
  | .pointwise1D | .reduction | .persistentReduction => do
    let xGrid ← gcuGrid1DGenerate meta_
    return (xGrid, .int 1, .int 1)
  | .pointwise2D => do
    let (xGrid, yGrid) ← gcuGrid2DGenerate meta_
    return (xGrid, yGrid, .int 1)
  | .pointwise3D => gcuGrid3DGenerate meta_

/-- Whether `codegen_kernel` puts the body into a loop over x blocks. -/
def Kernel.loops (kernel : Kernel) : Bool :=
  kernel.heuristic == "pointwise" && kernel.numels.length == 2 || kernel == .persistentReduction

/-! ### Launches -/

structure Launch where
  kernel : Kernel
  config : Meta
  (xnumel ynumel znumel : Nat)

def Launch.numel (l : Launch) (name : String) : Int :=
  if name = "xnumel" then l.xnumel else if name = "ynumel" then l.ynumel else l.znumel

/-- The value of a grid expression in the launcher. -/
def Launch.eval (l : Launch) : GridExpr → Except PyError Int
  | .int n => .ok n
  | .name numel => .ok (l.numel numel)
  | .neg e => do return -(← l.eval e)
  | .floorDiv e block => do
    let n ← l.eval e
    let b ← l.eval block
    if b = 0 then .error .zeroDivisionError else return n.fdiv b

/-- `grid_0`, `grid_1` and `grid_2`. -/
def Launch.grid (l : Launch) : Except PyError (Nat × Nat × Nat) := do
  let (xGrid, yGrid, zGrid) ← l.kernel.generate l.config
  let grid0 ← l.eval xGrid
  let grid1 ← l.eval yGrid
  let grid2 ← l.eval zGrid
  return (grid0.toNat, grid1.toNat, grid2.toNat)

/-- How many blocks there are along x: `(xnumel + XBLOCK - 1) // XBLOCK`. -/
def Launch.xBlocks (l : Launch) : Nat := l.xnumel ⌈/⌉ l.config.xBlock.getD 1

def Launch.yBlocks (l : Launch) : Nat := l.ynumel ⌈/⌉ l.config.yBlock.getD 1

def Launch.zBlocks (l : Launch) : Nat := l.znumel ⌈/⌉ l.config.zBlock.getD 1

/-- The blocks of the iteration space. -/
def Launch.space (l : Launch) : List (Nat × Nat × Nat) :=
  match l.kernel with
  | .pointwise1D | .reduction | .persistentReduction =>
    List.range l.xBlocks ×ˢ (List.range 1 ×ˢ List.range 1)
  | .pointwise2D => List.range l.xBlocks ×ˢ (List.range l.yBlocks ×ˢ List.range 1)
  | .pointwise3D => List.range l.xBlocks ×ˢ (List.range l.yBlocks ×ˢ List.range l.zBlocks)

/-- The blocks that a program visits. -/
def Launch.visits (l : Launch) (gridsize : Nat) (program : Nat × Nat × Nat) :
    List (Nat × Nat × Nat) :=
  if l.kernel.loops then
    (strided program.1 l.xBlocks gridsize).map fun xloop => (xloop, program.2)
  else [program]

/-- The blocks that all programs of a grid visit. -/
def Launch.visited (l : Launch) (grid : Nat × Nat × Nat) : List (Nat × Nat × Nat) :=
  (List.range grid.1 ×ˢ (List.range grid.2.1 ×ˢ List.range grid.2.2)).flatMap (l.visits grid.1)

/-- The kernel is launched, and every block of the iteration space is visited exactly once. -/
def Launch.Covers (l : Launch) : Prop :=
  ∃ grid, l.grid = .ok grid ∧ ∀ block ∈ l.space, (l.visited grid).count block = 1

/-! ### The condition -/

/-- The number of programs along x does not depend on the numel. -/
def Launch.Capped (l : Launch) : Prop := l.config.r0Block = none ∧ 24 < l.config.xBlock.getD 1

instance (l : Launch) : Decidable l.Capped := inferInstanceAs (Decidable (_ ∧ _))

/-- Without a loop, the capped number of programs has to do for all blocks along x. -/
def Launch.XFits (l : Launch) : Prop :=
  l.Capped → l.xBlocks ≤ 24 / l.config.numWarps.getD 1

def Launch.Condition (l : Launch) : Prop :=
  match l.kernel with
  | .pointwise1D | .persistentReduction =>
    l.Capped → l.config.numWarps.getD 1 ≤ 24 ∨ l.xnumel = 0
  | .reduction => l.XFits
  | .pointwise2D => 0 < l.ynumel ∧ (l.xnumel = 0 ∨ l.XFits ∧ l.yBlocks ≤ 255)
  | .pointwise3D =>
    0 < l.ynumel ∧ (l.xnumel = 0 ∨ l.znumel = 0 ∨ l.XFits ∧ l.yBlocks ≤ 255)

/-! ### Values of grid expressions -/

variable {l : Launch} {e b : GridExpr} {n m : Nat}

/-- `-((numel) // -(block))` rounds up. -/
theorem neg_fdiv_neg (positive : 0 < m) : -((n : Int).fdiv (-m)) = ((n ⌈/⌉ m : Nat) : Int) := by
  rw [Int.fdiv_eq_ediv, Int.ediv_neg]
  have negative : ¬ 0 ≤ -(m : Int) := by omega
  by_cases divides : m ∣ n
  · have signed : -(m : Int) ∣ n := Int.neg_dvd.mpr (Int.natCast_dvd_natCast.mpr divides)
    obtain ⟨k, rfl⟩ := divides
    have exact_ : m * k ⌈/⌉ m = k := smul_ceilDiv positive k
    rw [if_pos (.inr signed), exact_, Int.natCast_mul, Int.mul_ediv_cancel_left _ (by omega)]
    omega
  · have signed : ¬ -(m : Int) ∣ n := fun all =>
      divides (Int.natCast_dvd_natCast.mp (Int.neg_dvd.mp all))
    have above : n ⌈/⌉ m = n / m + 1 := by
      refine Nat.le_antisymm ?_ ?_
      · rw [ceilDiv_le_iff_le_mul positive]
        exact (Nat.lt_mul_div_succ n positive).le
      · rw [Nat.succ_le_iff, ← not_le, ceilDiv_le_iff_le_mul positive, not_le]
        exact lt_of_le_of_ne (Nat.mul_div_le n m) fun same => divides ⟨n / m, same.symm⟩
    rw [if_neg (not_or.mpr ⟨negative, signed⟩), above]
    omega

/-- The text of an expression, which is never an integer to Python. -/
def GridExpr.IsText (e : GridExpr) : Prop := ∀ k, e ≠ .int k

theorem ceildiv_text (text : e.IsText) (block : GridExpr) :
    ceildiv e (some block) = .ok (if block = .int 1 then e else .neg (.floorDiv e (.neg block))) := by
  cases e with
  | int k => exact absurd rfl (text k)
  | _ =>
    cases block with
    | int k =>
      by_cases one : k = 1
      · subst one
        rfl
      · simp [ceildiv, one]
    | _ => simp [ceildiv]

theorem eval_ceildiv (text : e.IsText) (numel : l.eval e = .ok n) (block : l.eval b = .ok m)
    (positive : 0 < m) : ∃ grid, ceildiv e (some b) = .ok grid ∧ grid.IsText ∧
      l.eval grid = .ok ((n ⌈/⌉ m : Nat) : Int) := by
  refine ⟨_, ceildiv_text text b, ?_⟩
  split
  · next one =>
    rw [one, Launch.eval] at block
    have unit : m = 1 := by
      have same := Except.ok.inj block
      omega
    rw [unit, ceilDiv_one]
    exact ⟨text, numel⟩
  · refine ⟨fun k => by simp, ?_⟩
    have differs : -(m : Int) ≠ 0 := by omega
    simp only [Launch.eval, numel, block, bind, Except.bind, pure, Except.pure, if_neg differs,
      neg_fdiv_neg positive]

theorem eval_ceildiv_zero (text : e.IsText) (numel : l.eval e = .ok n) (block : l.eval b = .ok 0) :
    ∃ grid, ceildiv e (some b) = .ok grid ∧ l.eval grid = .error .zeroDivisionError := by
  refine ⟨_, ceildiv_text text b, ?_⟩
  split
  · next one =>
    rw [one, Launch.eval] at block
    cases block
  · simp [Launch.eval, numel, block, bind, Except.bind, pure, Except.pure]

/-! ### The grid of a launch -/

theorem getD_pos {given : Option Nat} (known : given ≠ some 0) : 0 < given.getD 1 := by
  cases given with
  | none => exact Nat.one_pos
  | some block => exact Nat.pos_of_ne_zero fun zero => known (congrArg some zero)

theorem Meta.xBlock_pos (config : Meta) : 0 < config.xBlock.getD 1 :=
  getD_pos (config.blocks _ (by simp))

/-- The value of a numel divided into blocks. -/
theorem eval_gridDim (l : Launch) (name : String) (given : Option Nat) {n : Nat}
    (known : given ≠ some 0) (numel : l.numel name = n) : ∃ grid,
      gcuGetGridDim (some (.name name)) (given.map block) = .ok grid ∧ grid.IsText ∧
        l.eval grid = .ok ((n ⌈/⌉ given.getD 1 : Nat) : Int) := by
  have text : GridExpr.IsText (.name name) := fun k same => by cases same
  have value : l.eval (.name name) = .ok n := congrArg Except.ok numel
  cases given with
  | none =>
    rw [Option.getD_none, ceilDiv_one]
    exact ⟨_, rfl, text, value⟩
  | some size =>
    have positive : 0 < size := getD_pos known
    exact eval_ceildiv text value rfl positive

/-- The programs along x. -/
def Launch.xGrid (l : Launch) : Nat :=
  if l.Capped then 24 / l.config.numWarps.getD 1 else l.xBlocks

/-- The programs along y: blocks beyond the limit are divided by a number that nothing multiplies
with. -/
def Launch.yGrid (l : Launch) : Nat := l.yBlocks ⌈/⌉ (l.yBlocks ⌈/⌉ 255)

theorem eval_xGrid (l : Launch) : ∃ grid, gcuGrid1DGenerate l.config = .ok grid ∧
    l.eval grid = .ok (l.xGrid : Int) := by
  rw [Launch.xGrid]
  by_cases capped : l.Capped
  · rw [if_pos capped]
    refine ⟨_, if_pos capped, ?_⟩
    rw [Launch.eval, Int.natCast_ediv]
    rfl
  · rw [if_neg capped]
    obtain ⟨grid, made, -, value⟩ := eval_gridDim l "xnumel" (some (l.config.xBlock.getD 1))
      (fun zero => Nat.ne_of_gt l.config.xBlock_pos (Option.some.inj zero)) rfl
    exact ⟨grid, (if_neg capped).trans made, value⟩

theorem ceilDiv_pos {size : Nat} (positive : 0 < size) : 0 < n ⌈/⌉ size ↔ 0 < n := by
  rw [← not_le, ceilDiv_le_iff_le_mul positive, Nat.mul_zero, not_le]

theorem Launch.yBlocks_pos (l : Launch) : 0 < l.yBlocks ↔ 0 < l.ynumel :=
  ceilDiv_pos (getD_pos (l.config.blocks _ (by simp)))

theorem eval_yGrid (l : Launch) : ∃ x y, gcuGrid2DGenerate l.config = .ok (x, y) ∧
    l.eval x = .ok (l.xGrid : Int) ∧
    (0 < l.ynumel → l.eval y = .ok (l.yGrid : Int)) ∧
    (l.ynumel = 0 → l.eval y = .error .zeroDivisionError) := by
  obtain ⟨x, madeX, valueX⟩ := eval_xGrid l
  obtain ⟨rows, madeRows, text, valueRows⟩ := eval_gridDim l "ynumel" l.config.yBlock (l.config.blocks _ (by simp)) rfl
  obtain ⟨div, madeDiv, -, valueDiv⟩ := eval_ceildiv (b := getMaxYGrid) text valueRows
    (m := 255) rfl (by decide)
  rcases Nat.eq_zero_or_pos l.ynumel with zero | positive
  · have none : l.yBlocks ⌈/⌉ 255 = 0 := by
      have empty : l.yBlocks = 0 := Nat.eq_zero_of_not_pos fun some =>
        absurd (l.yBlocks_pos.mp some) (by omega)
      rw [empty, zero_ceilDiv]
    have valueDiv' : l.eval div = .ok 0 := by
      rw [valueDiv]
      exact congrArg (fun k : Nat => Except.ok (k : Int)) none
    obtain ⟨y, madeY, valueY⟩ := eval_ceildiv_zero text valueRows valueDiv'
    refine ⟨x, y, ?_, valueX, fun some => absurd some (by omega), fun _ => valueY⟩
    simp only [gcuGrid2DGenerate, madeX, madeRows, madeDiv, madeY, bind, Except.bind, pure,
      Except.pure]
  · have some : 0 < l.yBlocks ⌈/⌉ 255 := (ceilDiv_pos (by decide)).mpr (l.yBlocks_pos.mpr positive)
    obtain ⟨y, madeY, -, valueY⟩ := eval_ceildiv text valueRows valueDiv some
    refine ⟨x, y, ?_, valueX, fun _ => valueY, fun zero => absurd positive (by omega)⟩
    simp only [gcuGrid2DGenerate, madeX, madeRows, madeDiv, madeY, bind, Except.bind, pure,
      Except.pure]

theorem grid_1D (l : Launch) (kernel : l.kernel = .pointwise1D ∨ l.kernel = .reduction ∨
    l.kernel = .persistentReduction) : l.grid = .ok (l.xGrid, 1, 1) := by
  obtain ⟨x, made, value⟩ := eval_xGrid l
  rcases kernel with kernel | kernel | kernel <;>
  simp [Launch.grid, Kernel.generate, kernel, made, value, Launch.eval, bind, Except.bind, pure,
    Except.pure]

/-- A kernel with rows cannot be launched on none of them. -/
theorem grid_2D (l : Launch) (kernel : l.kernel = .pointwise2D) :
    l.grid = if l.ynumel = 0 then .error .zeroDivisionError else .ok (l.xGrid, l.yGrid, 1) := by
  obtain ⟨x, y, made, valueX, valueY, fails⟩ := eval_yGrid l
  by_cases zero : l.ynumel = 0
  · simp [Launch.grid, Kernel.generate, kernel, made, valueX, fails zero, zero, bind, Except.bind,
      pure, Except.pure]
  · simp [Launch.grid, Kernel.generate, kernel, made, valueX, valueY (Nat.pos_of_ne_zero zero), zero,
      Launch.eval, bind, Except.bind, pure, Except.pure]

theorem grid_3D (l : Launch) (kernel : l.kernel = .pointwise3D) :
    l.grid = if l.ynumel = 0 then .error .zeroDivisionError else
      .ok (l.xGrid, l.yGrid, l.zBlocks) := by
  obtain ⟨x, y, made, valueX, valueY, fails⟩ := eval_yGrid l
  obtain ⟨z, madeZ, -, valueZ⟩ := eval_gridDim l "znumel" l.config.zBlock (l.config.blocks _ (by simp)) rfl
  have madeZ' : ceildiv (.name "znumel") (l.config.zBlock.map block) = .ok z := by
    rw [← madeZ]
    cases l.config.zBlock <;> rfl
  have valueZ' : l.eval z = .ok (l.zBlocks : Int) := valueZ
  by_cases zero : l.ynumel = 0
  · simp [Launch.grid, Kernel.generate, kernel, gcuGrid3DGenerate, made, madeZ', valueX, fails zero,
      zero, bind, Except.bind, pure, Except.pure]
  · simp [Launch.grid, Kernel.generate, kernel, gcuGrid3DGenerate, made, madeZ', valueX,
      valueY (Nat.pos_of_ne_zero zero), valueZ', zero, bind, Except.bind, pure, Except.pure]

/-! ### Visits -/

/-- No block is visited twice, and which blocks are visited. -/
theorem visited_spec (l : Launch) (grid : Nat × Nat × Nat) :
    (l.visited grid).Nodup ∧ ∀ block, block ∈ l.visited grid ↔
      (if l.kernel.loops then block.1 < l.xBlocks ∧ 0 < grid.1 else block.1 < grid.1) ∧
        block.2.1 < grid.2.1 ∧ block.2.2 < grid.2.2 := by
  obtain ⟨gridX, gridY, gridZ⟩ := grid
  have programs : (List.range gridX ×ˢ (List.range gridY ×ˢ List.range gridZ)).Nodup :=
    List.nodup_range.product (List.nodup_range.product List.nodup_range)
  cases loops : l.kernel.loops with
  | false =>
    have each : l.visits gridX = fun program => [program] := by
      funext program
      simp [Launch.visits, loops]
    have visited : l.visited (gridX, gridY, gridZ) =
        List.range gridX ×ˢ (List.range gridY ×ˢ List.range gridZ) := by
      rw [Launch.visited, each, List.flatMap_singleton']
    rw [visited]
    refine ⟨programs, fun block => ?_⟩
    obtain ⟨x, y, z⟩ := block
    simp [List.mem_product, List.mem_range]
  | true =>
    have each : l.visits gridX = fun program =>
        (strided program.1 l.xBlocks gridX).map fun xloop => (xloop, program.2) := by
      funext program
      simp [Launch.visits, loops]
    have member : ∀ program ∈ List.range gridX ×ˢ (List.range gridY ×ˢ List.range gridZ),
        ∀ block, block ∈ l.visits gridX program ↔
          block.1 < l.xBlocks ∧ block.1 % gridX = program.1 ∧ block.2 = program.2 := by
      intro program here block
      have below : program.1 < gridX := List.mem_range.mp (List.mem_product.mp here).1
      rw [each, List.mem_map]
      constructor
      · rintro ⟨k, visit, rfl⟩
        obtain ⟨within, same⟩ := (mem_strided_program below).mp visit
        exact ⟨within, same, rfl⟩
      · rintro ⟨within, same, rest⟩
        exact ⟨block.1, (mem_strided_program below).mpr ⟨within, same⟩, by rw [← rest]⟩
    refine ⟨List.nodup_flatMap.mpr ⟨fun program here => ?_, ?_⟩, fun block => ?_⟩
    · have below : program.1 < gridX := List.mem_range.mp (List.mem_product.mp here).1
      rw [each]
      exact (nodup_strided (Nat.zero_lt_of_lt below)).map fun a b same => congrArg Prod.fst same
    · refine programs.imp_of_mem fun {p q} hereP hereQ differs block inP inQ => differs ?_
      obtain ⟨-, firstP, restP⟩ := (member p hereP block).mp inP
      obtain ⟨-, firstQ, restQ⟩ := (member q hereQ block).mp inQ
      exact Prod.ext (firstP.symm.trans firstQ) (restP.symm.trans restQ)
    · rw [Launch.visited, List.mem_flatMap]
      constructor
      · rintro ⟨program, here, visit⟩
        obtain ⟨within, -, rest⟩ := (member program here block).mp visit
        obtain ⟨inX, inRest⟩ := List.mem_product.mp here
        obtain ⟨inY, inZ⟩ := List.mem_product.mp inRest
        rw [rest]
        exact ⟨⟨within, Nat.zero_lt_of_lt (List.mem_range.mp inX)⟩, List.mem_range.mp inY,
          List.mem_range.mp inZ⟩
      · rintro ⟨⟨within, some⟩, inY, inZ⟩
        have here : (block.1 % gridX, block.2) ∈
            List.range gridX ×ˢ (List.range gridY ×ˢ List.range gridZ) :=
          List.mem_product.mpr ⟨List.mem_range.mpr (Nat.mod_lt _ some),
            List.mem_product.mpr ⟨List.mem_range.mpr inY, List.mem_range.mpr inZ⟩⟩
        exact ⟨_, here, (member _ here block).mpr ⟨within, rfl, rfl⟩⟩

theorem covers_iff_mem (l : Launch) :
    l.Covers ↔ ∃ grid, l.grid = .ok grid ∧ ∀ block ∈ l.space, block ∈ l.visited grid := by
  refine exists_congr fun grid => and_congr_right fun _ => forall₂_congr fun block _ => ?_
  rw [(visited_spec l grid).1.count]
  split <;> simp_all

/-- A box is within another one if it is empty or no side is longer. -/
theorem box_le (x y z x' y' z' : Nat) :
    (∀ block ∈ List.range x ×ˢ (List.range y ×ˢ List.range z),
      block.1 < x' ∧ block.2.1 < y' ∧ block.2.2 < z') ↔
      x = 0 ∨ y = 0 ∨ z = 0 ∨ x ≤ x' ∧ y ≤ y' ∧ z ≤ z' := by
  simp only [Prod.forall, List.mem_product, List.mem_range]
  constructor
  · intro within
    by_cases empty : x = 0 ∨ y = 0 ∨ z = 0
    · omega
    · have last := within (x - 1) (y - 1) (z - 1) (by omega)
      omega
  · intro box a b c here
    omega

/-! ### Coverage -/

theorem covers_of_grid {grid : Nat × Nat × Nat} (launched : l.grid = .ok grid) :
    l.Covers ↔ ∀ block ∈ l.space, block ∈ l.visited grid := by
  rw [covers_iff_mem, launched]
  constructor
  · rintro ⟨grid', same, covers⟩
    cases same
    exact covers
  · exact fun covers => ⟨grid, rfl, covers⟩

theorem not_covers_of_error {error : PyError} (raised : l.grid = .error error) : ¬ l.Covers := by
  rintro ⟨grid, launched, -⟩
  rw [raised] at launched
  cases launched

theorem numWarps_pos (config : Meta) : 0 < config.numWarps.getD 1 := getD_pos config.warps

theorem Launch.xBlocks_pos (l : Launch) : 0 < l.xBlocks ↔ 0 < l.xnumel :=
  ceilDiv_pos l.config.xBlock_pos

theorem Launch.zBlocks_pos (l : Launch) : 0 < l.zBlocks ↔ 0 < l.znumel :=
  ceilDiv_pos (getD_pos (l.config.blocks _ (by simp)))

theorem xFits_iff (l : Launch) : l.xBlocks ≤ l.xGrid ↔ l.XFits := by
  rw [Launch.xGrid, Launch.XFits]
  split
  · next capped => exact ⟨fun fits _ => fits, fun fits => fits capped⟩
  · next uncapped => exact ⟨fun _ capped => absurd capped uncapped, fun _ => le_rfl⟩

/-- Blocks along y beyond the limit are not all launched. -/
theorem yFits_iff (some : 0 < l.ynumel) : l.yBlocks ≤ l.yGrid ↔ l.yBlocks ≤ 255 := by
  have rows := l.yBlocks_pos.mpr some
  rw [Launch.yGrid]
  by_cases within : l.yBlocks ≤ 255
  · have one : l.yBlocks ⌈/⌉ 255 = 1 := by
      have le : l.yBlocks ⌈/⌉ 255 ≤ 1 := (ceilDiv_le_iff_le_mul (by decide)).mpr within
      have pos : 0 < l.yBlocks ⌈/⌉ 255 := (ceilDiv_pos (by decide)).mpr rows
      omega
    rw [one, ceilDiv_one]
    exact ⟨fun _ => within, fun _ => le_rfl⟩
  · have two : 1 < l.yBlocks ⌈/⌉ 255 := by
      rw [← not_le, ceilDiv_le_iff_le_mul (by decide)]
      exact within
    have fewer : l.yBlocks ⌈/⌉ (l.yBlocks ⌈/⌉ 255) ≤ l.yBlocks - 1 := by
      rw [ceilDiv_le_iff_le_mul (Nat.zero_lt_of_lt two)]
      calc l.yBlocks ≤ 2 * (l.yBlocks - 1) := by omega
        _ ≤ (l.yBlocks ⌈/⌉ 255) * (l.yBlocks - 1) := Nat.mul_le_mul_right _ two
    exact ⟨fun fits => by omega, fun fits => absurd fits within⟩

/-- With the loop, one program is enough. -/
theorem looped_covers (loops : l.kernel.loops = true) (launched : l.grid = .ok (l.xGrid, 1, 1))
    (space : l.space = List.range l.xBlocks ×ˢ (List.range 1 ×ˢ List.range 1)) :
    l.Covers ↔ (l.Capped → l.config.numWarps.getD 1 ≤ 24 ∨ l.xnumel = 0) := by
  have box : l.Covers ↔ l.xBlocks = 0 ∨ 0 < l.xGrid := by
    rw [covers_of_grid launched, space]
    simp only [(visited_spec l _).2, loops, if_true, Prod.forall, List.mem_product, List.mem_range]
    constructor
    · intro covers
      rcases Nat.eq_zero_or_pos l.xBlocks with none | some
      · exact .inl none
      · exact .inr (covers 0 0 0 ⟨some, by omega⟩).1.2
    · intro enough x y z here
      omega
  have empty : l.xBlocks = 0 ↔ l.xnumel = 0 := by
    have pos := l.xBlocks_pos
    omega
  rw [box, empty, Launch.xGrid]
  split
  · next capped =>
    have warps : 0 < 24 / l.config.numWarps.getD 1 ↔ l.config.numWarps.getD 1 ≤ 24 :=
      Nat.div_pos_iff.trans (and_iff_right (numWarps_pos l.config))
    rw [warps, or_comm]
    exact ⟨fun enough _ => enough, fun enough => enough capped⟩
  · next uncapped =>
    refine ⟨fun _ capped => absurd capped uncapped, fun _ => ?_⟩
    have pos := l.xBlocks_pos
    omega

/-- Without a loop, there has to be a program for every block. -/
theorem straight_covers {grid : Nat × Nat × Nat} {y z : Nat} (straight : l.kernel.loops = false)
    (launched : l.grid = .ok grid)
    (space : l.space = List.range l.xBlocks ×ˢ (List.range y ×ˢ List.range z)) :
    l.Covers ↔ l.xBlocks = 0 ∨ y = 0 ∨ z = 0 ∨
      l.xBlocks ≤ grid.1 ∧ y ≤ grid.2.1 ∧ z ≤ grid.2.2 := by
  rw [covers_of_grid launched, space, ← box_le]
  simp only [(visited_spec l grid).2, straight, Bool.false_eq_true, if_false]

theorem covers_iff_condition (l : Launch) : l.Covers ↔ l.Condition := by
  cases kernel : l.kernel with
  | pointwise1D =>
    rw [looped_covers (by rw [kernel]; rfl) (grid_1D l (.inl kernel))
      (by simp only [Launch.space, kernel])]
    simp only [Launch.Condition, kernel]
  | persistentReduction =>
    rw [looped_covers (by rw [kernel]; rfl) (grid_1D l (.inr (.inr kernel)))
      (by simp only [Launch.space, kernel])]
    simp only [Launch.Condition, kernel]
  | reduction =>
    rw [straight_covers (by rw [kernel]; rfl) (grid_1D l (.inr (.inl kernel)))
      (by simp only [Launch.space, kernel]; rfl)]
    simp only [Launch.Condition, kernel, ← xFits_iff]
    omega
  | pointwise2D =>
    by_cases zero : l.ynumel = 0
    · refine ⟨fun covers => absurd covers ?_, fun meets => ?_⟩
      · exact not_covers_of_error ((grid_2D l kernel).trans (if_pos zero))
      · simp [Launch.Condition, kernel, zero] at meets
    · have some : 0 < l.ynumel := Nat.pos_of_ne_zero zero
      have rows := l.yBlocks_pos.mpr some
      have columns := l.xBlocks_pos
      rw [straight_covers (by rw [kernel]; rfl) ((grid_2D l kernel).trans (if_neg zero))
        (by simp only [Launch.space, kernel]; rfl)]
      simp only [Launch.Condition, kernel, ← xFits_iff, ← yFits_iff some]
      omega
  | pointwise3D =>
    by_cases zero : l.ynumel = 0
    · refine ⟨fun covers => absurd covers ?_, fun meets => ?_⟩
      · exact not_covers_of_error ((grid_3D l kernel).trans (if_pos zero))
      · simp [Launch.Condition, kernel, zero] at meets
    · have some : 0 < l.ynumel := Nat.pos_of_ne_zero zero
      have rows := l.yBlocks_pos.mpr some
      have columns := l.xBlocks_pos
      have slices := l.zBlocks_pos
      rw [straight_covers (by rw [kernel]; rfl) ((grid_3D l kernel).trans (if_neg zero))
        (by simp only [Launch.space, kernel]; rfl)]
      simp only [Launch.Condition, kernel, ← xFits_iff, ← yFits_iff some]
      omega

/-- A kernel is launched and covers its iteration space exactly where the number of programs along
x is not capped below what it needs, and there are between one and 255 blocks along y. -/
theorem launch_covers (l : Launch) : l.Covers ↔ l.Condition := covers_iff_condition l

/-- A pointwise kernel in two dimensions, of 32 blocks along x. -/
def twoDimensional : Launch where
  kernel := .pointwise2D
  config := { xBlock := some 32, yBlock := some 32, numWarps := some 4 }
  xnumel := 1024
  ynumel := 1024
  znumel := 1

/-- Six programs are launched along x for its 32 blocks, and none of them loops. -/
theorem twoDimensional_uncovered : twoDimensional.grid = .ok (6, 32, 1) ∧
    twoDimensional.xBlocks = 32 ∧ ¬ twoDimensional.Covers := by
  refine ⟨by decide +kernel, by decide +kernel, fun covers => ?_⟩
  obtain ⟨-, none | ⟨fits, -⟩⟩ := (covers_iff_condition _).mp covers
  · exact absurd none (by decide)
  · exact absurd (fits (by decide)) (by decide +kernel)

end TorchGcu.Inductor

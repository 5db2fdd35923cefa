import Mathlib.Data.Nat.Log
import Mathlib.Data.Nat.ModEq
import TorchGcu.Checks
import TorchGcu.Logic.Runs

/-! The pools of streams of each device, and the ids under which their streams are known. -/
namespace TorchGcu.Streams
open ProgramLogic
open GCUCachingAllocator (Err TopsError GCUStream DeviceIndex)

def kMaxStreamNum : Nat := 32

def kStreamTypeBits : Nat := 4

def maxCompileTimeStreamPriorities : Int := 4

/-- `C10_COMPILE_TIME_MAX_GCUS`. -/
def compileTimeMaxGcus : Int := 16

/-! ### Stream ids -/

namespace StreamIdType

/-- `DEFAULT`. -/
def default : Nat := 0

/-- `EXT`. -/
def ext : Nat := 15

end StreamIdType

/-- The type that an id holds. Ids and their types are not negative. -/
def streamIdType (s : Nat) : Except Err Nat :=
  -- the id of an external stream is its pointer, whose last bit is 0
  if s &&& 1 = 0 ∧ s ≠ 0 then .ok StreamIdType.ext
  else
    let maskForType := (1 <<< kStreamTypeBits) - 1
    let val := (s >>> 1) &&& maskForType
    if val ≠ 0 ∨ s &&& 1 = 0 then .ok val else .error (.internalAssert "invalid StreamId")

def streamIdIndex (kStreamsPerPoolBits : Nat) (s : Nat) : Nat :=
  (s >>> (kStreamTypeBits + 1)) &&& ((1 <<< kStreamsPerPoolBits) - 1)

def makeStreamId (st si : Nat) : Nat :=
  if st = StreamIdType.default then 0 else (si <<< (kStreamTypeBits + 1)) ||| (st <<< 1) ||| 1

/-! ### State -/

/-- `streams[priority][device][index]`. -/
structure Cell where
  priority : Nat
  device : DeviceIndex
  index : Nat
deriving DecidableEq, Repr

/-- The static variables. The cells into which a stream was written are listed, whether
the table has them or not. -/
structure StreamState where
  initFlag : Bool := false
  numGcus : Int := -1
  kStreamsPerPoolBits : Nat := 5
  kStreamsPerPool : Nat := kMaxStreamNum
  maxStreamPriorities : Int := 0
  deviceFlags : DeviceIndex → Bool := fun _ => false
  priorityCounters : Nat → DeviceIndex → UInt32 := fun _ _ => 0
  written : List Cell := []

abbrev M := EStateM Err StreamState

/-- What stays the same while a process runs: the number that `ENFLAME_PT_STREAM_NUM` begins
with, if it is set, and the number of devices. -/
structure Process where
  streamNum : Option Int := none
  deviceCount : Int

/-- What the runtime answers during a call. -/
structure Runtime where
  currentDevice : Int := 0
  streamCreateWithFlags : Cell → Option TopsError := fun _ => none

/-! ### Initialization -/

def initGlobalStreamState (process : Process) : M Unit := do
  modify fun s => { s with numGcus := process.deviceCount }
  torchCheck (decide (process.deviceCount ≤ compileTimeMaxGcus))
    "Number of GCU devices on the machine is larger than the compiled max number of gpus expected ("
  -- the runtime is not asked for the range of priorities yet
  let leastPriority : Int := -1
  let greatestPriority : Int := -1
  let range := leastPriority - greatestPriority + 1
  modify fun s => { s with
    maxStreamPriorities :=
      if range ≥ maxCompileTimeStreamPriorities then maxCompileTimeStreamPriorities else range }

/-- A flag that is not set when its initialization raises. -/
def initGCUStreamsOnce (process : Process) : M Unit := do
  if !(← get).initFlag then
    initGlobalStreamState process
    modify fun s => { s with initFlag := true }
  else pure ()

/-- `GetEnvInt` as a 32-bit `int`. -/
def Process.numStreams (process : Process) : Int :=
  (process.streamNum.getD kMaxStreamNum).bmod (2 ^ 32)

/-- The number of streams asked for, brought into its range and to a power of two. -/
def Process.poolBits (process : Process) : Nat :=
  (max process.numStreams kMaxStreamNum).toNat.log2

def createStreams (rt : Runtime) : List Cell → M Unit
  | [] => pure ()
  | cell :: cells => do
    gcuCheck (rt.streamCreateWithFlags cell)
    modify fun s => { s with written := cell :: s.written }
    createStreams rt cells

/-- The cells of a device's pools, in the order of the two loops. -/
def poolCells (pool : Nat) (priorities : Int) (device : DeviceIndex) : List Cell :=
  (List.range pool).flatMap fun i => (List.range priorities.toNat).map fun p => ⟨p, device, i⟩

def initDeviceStreamState (process : Process) (rt : Runtime) (device : DeviceIndex) : M Unit := do
  modify fun s => { s with
    kStreamsPerPoolBits := process.poolBits
    kStreamsPerPool := 1 <<< process.poolBits }
  let s ← get
  createStreams rt (poolCells s.kStreamsPerPool s.maxStreamPriorities device)

/-! ### Streams of the pools -/

def getIdx (priority : Nat) (device : DeviceIndex) : M Nat := do
  let s ← get
  let rawIdx := s.priorityCounters priority device
  set { s with priorityCounters := fun p d =>
    if p = priority ∧ d = device then rawIdx + 1 else s.priorityCounters p d }
  return rawIdx.toNat % s.kStreamsPerPool

/-- `std::clamp(-priority, 0, max_stream_priorities - 1)`. -/
def priIdx (priority maxStreamPriorities : Int) : Nat :=
  (max 0 (min (-priority) (maxStreamPriorities - 1))).toNat

def getStreamFromPool (process : Process) (rt : Runtime) (priority deviceIndex : Int) :
    M GCUStream := do
  initGCUStreamsOnce process
  let index := if deviceIndex = -1 then rt.currentDevice else deviceIndex
  -- `check_gcu`
  internalAssert (decide (0 ≤ index ∧ index < (← get).numGcus))
    "device_index >= 0 && device_index < num_gcus"
  let device := index.toNat
  if !(← get).deviceFlags device then
    initDeviceStreamState process rt device
    modify fun s => { s with deviceFlags := fun d => if d = device then true else s.deviceFlags d }
  else pure ()
  let pri := priIdx priority (← get).maxStreamPriorities
  let idx ← getIdx pri device
  return ⟨device, makeStreamId (pri + 1) idx⟩

/-- What `GCUStream::stream` returns. -/
inductive Target where
  | default
  | external (pointer : Nat)
  | pooled (cell : Cell)
deriving DecidableEq, Repr

def stream (s : StreamState) (self : GCUStream) : Except Err Target := do
  let st ← streamIdType self.stream
  let si := streamIdIndex s.kStreamsPerPoolBits self.stream
  if st = StreamIdType.default then
    if si = 0 then return .default else throw (.internalAssert "Unrecognized stream ")
  else if st = StreamIdType.ext then
    return .external self.stream
  else if 1 ≤ st ∧ (st : Int) ≤ s.maxStreamPriorities then
    return .pooled ⟨st - 1, self.deviceIndex, si⟩
  else throw (.internalAssert "Unrecognized stream ")

/-! ### Ids and their parts -/

theorem makeStreamId_eq {st : Nat} (pooled : 0 < st) (small : st < 16) (si : Nat) :
    makeStreamId st si = 32 * si + 2 * st + 1 := by
  have low : st <<< 1 ||| 1 = st <<< 1 + 1 := (Nat.shiftLeft_add_eq_or_of_lt (by decide) st).symm
  have below : st <<< 1 + 1 < 2 ^ 5 := by
    rw [Nat.shiftLeft_eq]
    omega
  rw [makeStreamId, if_neg (show st ≠ StreamIdType.default from Nat.ne_of_gt pooled), Nat.or_assoc, low,
    show kStreamTypeBits + 1 = 5 from rfl, ← Nat.shiftLeft_add_eq_or_of_lt below si,
    Nat.shiftLeft_eq, Nat.shiftLeft_eq]
  omega

theorem streamIdIndex_eq (bits : Nat) (s : Nat) : streamIdIndex bits s = s / 32 % 2 ^ bits := by
  rw [streamIdIndex, Nat.shiftLeft_eq, Nat.one_mul, Nat.and_two_pow_sub_one_eq_mod,
    Nat.shiftRight_eq_div_pow]
  rfl

theorem streamIdType_odd {s : Nat} (odd : s % 2 = 1) (typed : s / 2 % 16 ≠ 0) :
    streamIdType s = .ok (s / 2 % 16) := by
  have bit : s &&& 1 = 1 := by rw [Nat.and_one_is_mod, odd]
  have val : (s >>> 1) &&& ((1 <<< kStreamTypeBits) - 1) = s / 2 % 16 := by
    rw [show (1 <<< kStreamTypeBits) - 1 = 2 ^ 4 - 1 from rfl, Nat.and_two_pow_sub_one_eq_mod,
      Nat.shiftRight_eq_div_pow]
  simp only [streamIdType, bit, val]
  simp [typed]

section
variable {st si bits : Nat}

theorem makeStreamId_odd (pooled : 0 < st) (small : st < 16) : makeStreamId st si % 2 = 1 := by
  rw [makeStreamId_eq pooled small]
  omega

theorem streamIdType_makeStreamId (pooled : 0 < st) (small : st < 16) :
    streamIdType (makeStreamId st si) = .ok st := by
  have half : makeStreamId st si / 2 % 16 = st := by
    rw [makeStreamId_eq pooled small]
    omega
  rw [streamIdType_odd (makeStreamId_odd pooled small) (by rw [half]; exact Nat.ne_of_gt pooled),
    half]

theorem streamIdIndex_makeStreamId (pooled : 0 < st) (small : st < 16) (fits : si < 2 ^ bits) :
    streamIdIndex bits (makeStreamId st si) = si := by
  have index : makeStreamId st si / 32 = si := by
    rw [makeStreamId_eq pooled small]
    omega
  rw [streamIdIndex_eq, index, Nat.mod_eq_of_lt fits]

theorem makeStreamId_inj {st' si' : Nat} (pooled : 0 < st) (small : st < 16) (pooled' : 0 < st')
    (small' : st' < 16) : makeStreamId st si = makeStreamId st' si' ↔ st = st' ∧ si = si' := by
  rw [makeStreamId_eq pooled small, makeStreamId_eq pooled' small']
  omega

end

/-! ### The size of a pool -/

/-- The streams in each pool of a process. -/
def Process.poolSize (process : Process) : Nat := 1 <<< process.poolBits

theorem Process.poolSize_eq (process : Process) : process.poolSize = 2 ^ process.poolBits := by
  rw [Process.poolSize, Nat.shiftLeft_eq, Nat.one_mul]

theorem Process.poolSize_le_iff (process : Process) :
    process.poolSize ≤ kMaxStreamNum ↔ process.numStreams < 64 := by
  have positive : (max process.numStreams kMaxStreamNum).toNat ≠ 0 := by
    simp only [kMaxStreamNum]
    omega
  rw [process.poolSize_eq, show kMaxStreamNum = 2 ^ 5 from rfl, Nat.pow_le_pow_iff_right (by decide),
    ← Nat.lt_succ_iff, Process.poolBits, Nat.log2_lt positive]
  simp only [kMaxStreamNum]
  omega

/-- An `int` holds the size, and ids hold every index. -/
theorem Process.poolBits_le (process : Process) : process.poolBits ≤ 30 := by
  have upper : process.numStreams < 2 ^ 31 := by
    have bound := @Int.bmod_lt (process.streamNum.getD kMaxStreamNum) (2 ^ 32) (by decide)
    exact bound
  have positive : (max process.numStreams kMaxStreamNum).toNat ≠ 0 := by
    simp only [kMaxStreamNum]
    omega
  rw [← Nat.lt_succ_iff, Process.poolBits, Nat.log2_lt positive]
  simp only [kMaxStreamNum]
  omega

/-! ### Calls of a process -/

structure Call where
  rt : Runtime := {}
  priority : Int
  deviceIndex : Int

/-- A call, which may raise. -/
def PoolStep (process : Process) (s : StreamState) (call : Call) (after : StreamState) : Prop :=
  wp (getStreamFromPool process call.rt call.priority call.deviceIndex)
    (fun _ last => last = after) (fun _ last => last = after) s

/-- A call that returned. -/
structure Returned (process : Process) extends Call where
  before : StreamState
  after : StreamState
  result : GCUStream
  reached : Reaches (PoolStep process) {} before
  ran : (getStreamFromPool process rt priority deviceIndex).run before = .ok result after

namespace Returned
variable {process : Process} (call : Returned process)

def pri : Nat := priIdx call.priority call.after.maxStreamPriorities

/-- The counter that the call reads. -/
def counter : Nat := (call.before.priorityCounters call.pri call.result.deviceIndex).toNat

/-- What `get_idx` returns. -/
def idx : Nat := call.counter % call.after.kStreamsPerPool

def cell : Cell := ⟨call.pri, call.result.deviceIndex, call.idx⟩

end Returned

/-- Streams are written into the table and taken from it, and ids tell them apart. -/
structure Sound (process : Process) : Prop where
  inside : ∀ {s}, Reaches (PoolStep process) {} s → ∀ cell ∈ s.written,
    (cell.priority : Int) < maxCompileTimeStreamPriorities ∧
      (cell.device : Int) < compileTimeMaxGcus ∧ cell.index < kMaxStreamNum
  index : ∀ call : Returned process, call.idx < kMaxStreamNum ∧ call.cell ∈ call.after.written
  encodes : ∀ call : Returned process,
    call.result.stream = makeStreamId (call.pri + 1) call.idx ∧ call.result.stream < 2 ^ 63
  decodes : ∀ call : Returned process, streamIdType call.result.stream = .ok (call.pri + 1) ∧
    streamIdIndex call.after.kStreamsPerPoolBits call.result.stream = call.idx ∧
    stream call.after call.result = .ok (.pooled call.cell)
  odd : ∀ call : Returned process, call.result.stream % 2 = 1
  same : ∀ call other : Returned process, call.result.deviceIndex = other.result.deviceIndex →
    call.pri = other.pri → (call.result = other.result ↔
      call.counter ≡ other.counter [MOD call.after.kStreamsPerPool])

/-! ### What calls do -/

/-- The state between two calls. -/
structure Inv (process : Process) (s : StreamState) : Prop where
  ready : s.initFlag = true → s.numGcus = process.deviceCount ∧
    process.deviceCount ≤ compileTimeMaxGcus ∧ s.maxStreamPriorities = 1
  written : ∀ cell ∈ s.written, cell.priority = 0 ∧ (cell.device : Int) < process.deviceCount ∧
    process.deviceCount ≤ compileTimeMaxGcus ∧ cell.index < process.poolSize
  pools : ∀ device, s.deviceFlags device = true → s.kStreamsPerPool = process.poolSize ∧
    s.kStreamsPerPoolBits = process.poolBits ∧
    ∀ index < process.poolSize, ⟨0, device, index⟩ ∈ s.written

variable {process : Process} {rt : Runtime} {s : StreamState}

theorem createStreams_written (cells : List Cell) :
    wp (createStreams rt cells)
      (fun _ t => t = { s with written := cells.reverse ++ s.written })
      (fun _ t => (∃ done, (∀ cell ∈ done, cell ∈ cells) ∧
        t = { s with written := done ++ s.written }) ∧ ∃ cell, rt.streamCreateWithFlags cell ≠ none)
      s := by
  induction cells generalizing s with
  | nil => exact rfl
  | cons cell cells ih =>
    simp only [createStreams, wp_bind, wp_gcuCheck, wp_modify]
    refine ⟨fun _ => ?_, fun error failed =>
      ⟨⟨[], fun _ member => absurd member List.not_mem_nil, rfl⟩, cell, by simp [failed]⟩⟩
    refine wp_mono ih (fun _ t after => ?_) fun _ t after => ?_
    · rw [after, List.reverse_cons, List.append_assoc]
      rfl
    · obtain ⟨⟨done, subset, rfl⟩, failed⟩ := after
      refine ⟨⟨done ++ [cell], fun one member => ?_, by simp⟩, failed⟩
      rcases List.mem_append.mp member with early | last
      · exact List.mem_cons_of_mem cell (subset one early)
      · exact List.mem_singleton.mp last ▸ List.mem_cons_self

theorem mem_poolCells {pool : Nat} {device : DeviceIndex} {cell : Cell} :
    cell ∈ poolCells pool 1 device ↔
      cell.priority = 0 ∧ cell.device = device ∧ cell.index < pool := by
  obtain ⟨priority, owner, index⟩ := cell
  simp only [poolCells, List.mem_flatMap, List.mem_map, List.mem_range, Cell.mk.injEq]
  constructor
  · rintro ⟨i, small, p, first, rfl, rfl, rfl⟩
    exact ⟨Nat.lt_one_iff.mp first, rfl, small⟩
  · rintro ⟨rfl, rfl, small⟩
    exact ⟨index, small, 0, Nat.one_pos, rfl, rfl, rfl⟩

theorem initGCUStreamsOnce_spec (inv : Inv process s) :
    wp (initGCUStreamsOnce process)
      (fun _ t => Inv process t ∧ t.initFlag = true ∧ t.priorityCounters = s.priorityCounters)
      (fun _ t => Inv process t ∧ compileTimeMaxGcus < process.deviceCount) s := by
  simp only [initGCUStreamsOnce, initGlobalStreamState, wp_bind, wp_get, wp_ite, wp_modify,
    wp_torchCheck, wp_pure, decide_eq_true_eq, decide_eq_false_iff_not, Bool.not_eq_true',
    Bool.not_eq_false]
  refine ⟨fun unready => ⟨fun known => ⟨⟨fun _ => ⟨rfl, known, rfl⟩, inv.written, inv.pools⟩, trivial, trivial⟩,
    fun many => ⟨⟨fun ready => ?_, inv.written, inv.pools⟩, Int.lt_of_not_ge many⟩⟩,
    fun ready => ⟨inv, ready, trivial⟩⟩
  rw [show s.initFlag = true from ready] at unready
  cases unready

/-- A device's pools are there, or they are created. -/
theorem initDeviceStreamState_spec (inv : Inv process s) (ready : s.initFlag = true)
    {device : DeviceIndex} (accepted : (device : Int) < process.deviceCount) :
    wp (initDeviceStreamState process rt device)
      (fun _ t => Inv process { t with
          deviceFlags := fun d => if d = device then true else t.deviceFlags d } ∧
        t.initFlag = true ∧ t.priorityCounters = s.priorityCounters)
      (fun _ t => Inv process t ∧ ∃ cell, rt.streamCreateWithFlags cell ≠ none) s := by
  obtain ⟨-, few, one⟩ := inv.ready ready
  have added (done : List Cell) (subset : ∀ cell ∈ done,
      cell ∈ poolCells process.poolSize s.maxStreamPriorities device) : Inv process { s with
        kStreamsPerPoolBits := process.poolBits
        kStreamsPerPool := process.poolSize
        written := done ++ s.written } := by
    refine ⟨inv.ready, fun cell member => ?_, fun d flagged => ⟨rfl, rfl, fun index small => ?_⟩⟩
    · rcases List.mem_append.mp member with new | old
      · have here := subset cell new
        rw [one, mem_poolCells] at here
        exact ⟨here.1, here.2.1 ▸ accepted, few, here.2.2⟩
      · exact inv.written cell old
    · exact List.mem_append.mpr (.inr ((inv.pools d flagged).2.2 index small))
  simp only [initDeviceStreamState, wp_bind, wp_modify, wp_get]
  refine wp_mono (createStreams_written _) (fun _ t after => ?_) fun _ t after => ?_
  · subst after
    have whole := added _ fun cell member => List.mem_reverse.mp member
    refine ⟨⟨whole.ready, whole.written, fun d flagged => ⟨rfl, rfl, fun index small => ?_⟩⟩,
      ready, rfl⟩
    by_cases here : d = device
    · refine List.mem_append.mpr (.inl (List.mem_reverse.mpr ?_))
      rw [one]
      exact mem_poolCells.mpr ⟨rfl, here, small⟩
    · simp only [if_neg here] at flagged
      exact (whole.pools d flagged).2.2 index small
  · obtain ⟨⟨done, subset, rfl⟩, failed⟩ := after
    exact ⟨added done subset, failed⟩

/-- Only one priority exists. -/
theorem priIdx_one (priority : Int) : priIdx priority 1 = 0 := by
  unfold priIdx
  omega

/-- What a call that returns has done. -/
structure Taken (process : Process) (s t : StreamState) (result : GCUStream) : Prop where
  known : (result.deviceIndex : Int) < process.deviceCount
  few : process.deviceCount ≤ compileTimeMaxGcus
  flagged : t.deviceFlags result.deviceIndex = true
  one : t.maxStreamPriorities = 1
  stream : result.stream = makeStreamId 1
    ((s.priorityCounters 0 result.deviceIndex).toNat % process.poolSize)

/-- Why a call raises. -/
def Fails (process : Process) (call : Call) : Prop :=
  let index := if call.deviceIndex = -1 then call.rt.currentDevice else call.deviceIndex
  compileTimeMaxGcus < process.deviceCount ∨ ¬ (0 ≤ index ∧ index < process.deviceCount) ∨
    ∃ cell, call.rt.streamCreateWithFlags cell ≠ none

theorem getStreamFromPool_spec (inv : Inv process s) (call : Call) :
    wp (getStreamFromPool process call.rt call.priority call.deviceIndex)
      (fun result t => Inv process t ∧ Taken process s t result)
      (fun _ t => Inv process t ∧ Fails process call) s := by
  simp only [getStreamFromPool, wp_bind]
  refine wp_mono (initGCUStreamsOnce_spec inv) (fun _ t after => ?_)
    fun _ t after => ⟨after.1, .inl after.2⟩
  obtain ⟨invT, ready, counters⟩ := after
  obtain ⟨count, few, -⟩ := invT.ready ready
  simp only [wp_get, wp_internalAssert, decide_eq_true_eq, decide_eq_false_iff_not, count]
  refine ⟨fun accepted => ?_, fun refused => ⟨invT, .inr (.inl refused)⟩⟩
  generalize indexIs : (if call.deviceIndex = -1 then call.rt.currentDevice else call.deviceIndex) =
    index at accepted ⊢
  have known : (index.toNat : Int) < process.deviceCount := by
    rw [Int.toNat_of_nonneg accepted.1]
    exact accepted.2
  have takes (u : StreamState) (invU : Inv process u) (readyU : u.initFlag = true)
      (countersU : u.priorityCounters = s.priorityCounters)
      (flagged : u.deviceFlags index.toNat = true) :
      wp (do
          let pri := priIdx call.priority (← get).maxStreamPriorities
          let idx ← getIdx pri index.toNat
          return ⟨index.toNat, makeStreamId (pri + 1) idx⟩)
        (fun result t => Inv process t ∧ Taken process s t result)
        (fun _ t => Inv process t ∧ Fails process call) u := by
    obtain ⟨-, -, one⟩ := invU.ready readyU
    have pri : priIdx call.priority u.maxStreamPriorities = 0 := by rw [one, priIdx_one]
    simp only [getIdx, wp_bind, wp_get, wp_set, wp_pure, pri]
    refine ⟨⟨invU.ready, invU.written, invU.pools⟩, ⟨known, few, flagged, one, ?_⟩⟩
    rw [(invU.pools _ flagged).1, countersU]
  simp only [wp_ite, wp_bind, wp_modify, wp_pure, Bool.not_eq_true', Bool.not_eq_false]
  refine ⟨fun _ => ?_, fun flagged => ?_⟩
  · refine wp_mono (initDeviceStreamState_spec invT ready known) (fun _ u after => ?_)
      fun _ u after => ⟨after.1, .inr (.inr after.2)⟩
    simpa only [wp_bind, wp_get, wp_pure] using takes _ after.1 after.2.1 (after.2.2.trans counters) (if_pos rfl)
  · simpa only [wp_bind, wp_get, wp_pure] using takes t invT ready counters flagged

theorem Inv.start (process : Process) : Inv process {} :=
  ⟨fun never => (by cases never), fun _ member => absurd member List.not_mem_nil,
    fun _ never => (by cases never)⟩

theorem Inv.step {call : Call} {after : StreamState} (inv : Inv process s)
    (taken : PoolStep process s call after) : Inv process after := by
  by_contra broken
  refine wp_false (wp_mono (wp_and (getStreamFromPool_spec inv call) taken)
    (fun _ last both => broken ?_) fun _ last both => broken ?_)
  · exact both.2 ▸ both.1.1
  · exact both.2 ▸ both.1.1

theorem Inv.reached (run : Reaches (PoolStep process) {} s) : Inv process s :=
  run.invariant (fun inv taken => inv.step taken) (.start process)

namespace Returned
variable (call other : Returned process)

theorem spec : Inv process call.after ∧ Taken process call.before call.after call.result := by
  have spec := getStreamFromPool_spec (.reached call.reached) call.toCall
  exact (wp_run call.ran).mp spec

theorem pri_eq : call.pri = 0 := by rw [pri, call.spec.2.one, priIdx_one]

theorem kStreamsPerPool_eq : call.after.kStreamsPerPool = process.poolSize :=
  (call.spec.1.pools _ call.spec.2.flagged).1

theorem idx_lt : call.idx < process.poolSize := by
  rw [idx, call.kStreamsPerPool_eq]
  exact Nat.mod_lt _ (process.poolSize_eq ▸ Nat.two_pow_pos _)

theorem written : call.cell ∈ call.after.written := by
  rw [cell, call.pri_eq]
  exact (call.spec.1.pools _ call.spec.2.flagged).2.2 _ call.idx_lt

theorem stream_eq : call.result.stream = makeStreamId 1 call.idx := by
  rw [call.spec.2.stream, idx, call.kStreamsPerPool_eq, counter, call.pri_eq]

theorem stream_lt : call.result.stream < 2 ^ 63 := by
  have small := call.idx_lt
  have bound : process.poolSize ≤ 2 ^ 30 :=
    process.poolSize_eq ▸ Nat.pow_le_pow_right (by decide) process.poolBits_le
  rw [call.stream_eq, makeStreamId_eq Nat.one_pos (by decide)]
  change 32 * call.idx + 2 * 1 + 1 < 2 ^ 63
  omega

theorem index : streamIdIndex call.after.kStreamsPerPoolBits call.result.stream = call.idx := by
  rw [call.stream_eq, (call.spec.1.pools _ call.spec.2.flagged).2.1]
  exact streamIdIndex_makeStreamId Nat.one_pos (by decide) (process.poolSize_eq ▸ call.idx_lt)

theorem type : streamIdType call.result.stream = .ok 1 := by
  rw [call.stream_eq, streamIdType_makeStreamId Nat.one_pos (by decide)]

theorem target : stream call.after call.result = .ok (.pooled call.cell) := by
  simp only [stream, call.type, call.index, call.spec.2.one, cell, call.pri_eq]
  rfl

theorem same (device : call.result.deviceIndex = other.result.deviceIndex) :
    call.result = other.result ↔ call.counter ≡ other.counter [MOD process.poolSize] := by
  have idx_eq (one : Returned process) : one.idx = one.counter % process.poolSize := by
    rw [idx, one.kStreamsPerPool_eq]
  have streams : call.result = other.result ↔ call.result.stream = other.result.stream := by
    refine ⟨fun eq => eq ▸ rfl, fun eq => ?_⟩
    calc call.result = ⟨call.result.deviceIndex, call.result.stream⟩ := rfl
      _ = ⟨other.result.deviceIndex, other.result.stream⟩ := by rw [device, eq]
  rw [streams, call.stream_eq, other.stream_eq,
    makeStreamId_inj Nat.one_pos (by decide) Nat.one_pos (by decide), idx_eq, idx_eq]
  exact and_iff_right rfl

end Returned

/-- With a device there is a call that returns, and it has created the whole pool. -/
theorem exists_written (some : 0 < process.deviceCount)
    (few : process.deviceCount ≤ compileTimeMaxGcus) {index : Nat} (small : index < process.poolSize) :
    ∃ s device, Reaches (PoolStep process) {} s ∧ ⟨0, device, index⟩ ∈ s.written := by
  let call : Call := { priority := 0, deviceIndex := 0 }
  have spec := getStreamFromPool_spec (.start process) call
  cases ran : (getStreamFromPool process call.rt call.priority call.deviceIndex).run {} with
  | ok result after =>
    obtain ⟨inv, taken⟩ := wp_ok spec ran
    have first : PoolStep process {} call after := (wp_run ran).mpr rfl
    exact ⟨after, result.deviceIndex, .next .refl first, (inv.pools _ taken.flagged).2.2 index small⟩
  | error e after =>
    rcases (wp_error spec ran).2 with many | refused | ⟨cell, failed⟩
    · omega
    · exact absurd ⟨le_rfl, some⟩ refused
    · exact absurd rfl failed

theorem sound_iff_fits :
    Sound process ↔ (0 < process.deviceCount → process.deviceCount ≤ compileTimeMaxGcus →
      process.poolSize ≤ kMaxStreamNum) := by
  constructor
  · intro sound some few
    by_contra large
    obtain ⟨s, device, run, member⟩ := exists_written some few (Nat.lt_of_not_le large)
    exact absurd (sound.inside run _ member).2.2 (Nat.lt_irrefl _)
  · intro fits
    have pooled (call : Returned process) : process.poolSize ≤ kMaxStreamNum := by
      refine fits ?_ call.spec.2.few
      have known := call.spec.2.known
      omega
    refine ⟨fun run cell member => ?_, fun call => ⟨call.idx_lt.trans_le (pooled call), call.written⟩,
      fun call => ⟨by rw [call.pri_eq]; exact call.stream_eq, call.stream_lt⟩,
      fun call => ⟨by rw [call.pri_eq]; exact call.type, call.index, call.target⟩,
      fun call => ?_, fun call other device _ => ?_⟩
    · obtain ⟨priority, known, few, small⟩ := (Inv.reached run).written cell member
      refine ⟨by rw [priority]; decide, known.trans_le few, small.trans_le (fits ?_ few)⟩
      omega
    · rw [call.stream_eq]
      exact makeStreamId_odd Nat.one_pos (by decide)
    · rw [call.kStreamsPerPool_eq]
      exact call.same other device

/-- The streams of a process with a device fit the table exactly when fewer than 64 are asked
for. -/
theorem pool_streams_sound (process : Process) :
    Sound process ↔ (0 < process.deviceCount → process.deviceCount ≤ compileTimeMaxGcus →
      process.numStreams < 64) := by
  rw [sound_iff_fits, process.poolSize_le_iff]

/-- With 64 streams the second half of a device's pool is written behind the table. -/
theorem pool_streams_unsound : ¬ Sound { streamNum := some 64, deviceCount := 1 } := by
  intro sound
  have fits := sound_iff_fits.mp sound (by decide) (by decide)
  revert fits
  decide

end TorchGcu.Streams

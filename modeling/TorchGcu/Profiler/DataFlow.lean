import Mathlib.Data.List.Dedup
import Mathlib.Data.List.Sort

/-! The identities of tensors in a profile. Observations get allocation IDs, which say which version
of a storage they see, and versions that are seen through one `TensorImpl` get one tensor ID. -/
namespace TorchGcu.DataFlow

/-! ### Results -/

/-- `c10::Device`. -/
structure Device where
  type : Nat
  index : Int
deriving DecidableEq

/-- What is read of a tensor: the addresses of its `TensorImpl` and of its storage. -/
structure TensorMetadata where
  impl : Nat
  data : Nat
  device : Device

/-- `op_input_t`. -/
inductive OpInput where
  | tensor (t : TensorMetadata)
  | tensorList (t : List TensorMetadata)
  | other

/-- A parameter of a module. -/
structure ParameterInfo where
  metadata : TensorMetadata
  gradMetadata : Option TensorMetadata

/-- A parameter of an optimizer, with its state. -/
structure OptimizedInfo extends ParameterInfo where
  state : List TensorMetadata

/-- A module or an optimizer: the address of the object and its parameters. -/
structure OwnerInfo (P : Type) where
  self : Nat
  parameters : List P

inductive Result where
  | torchOp (inputs : List OpInput)
  | pyCall (module : Option (OwnerInfo ParameterInfo))
    (optimizer : Option (OwnerInfo OptimizedInfo))
  | allocation (ptr : Nat) (device : Device) (allocSize : Int)
  | other

structure RawTensorInfo where
  impl : Nat
  storage : Nat
  device : Device
  isFree : Bool
deriving DecidableEq

def noTensorImpl : Nat := 0

def TensorMetadata.raw (t : TensorMetadata) : RawTensorInfo := ⟨t.impl, t.data, t.device, false⟩

def OpInput.raw : OpInput → List RawTensorInfo
  | .tensor t => [t.raw]
  | .tensorList t => t.map TensorMetadata.raw
  | .other => []

def ParameterInfo.raw (p : ParameterInfo) : List RawTensorInfo :=
  p.metadata.raw :: p.gradMetadata.toList.map TensorMetadata.raw

def OptimizedInfo.raw (p : OptimizedInfo) : List RawTensorInfo :=
  p.toParameterInfo.raw ++ p.state.map TensorMetadata.raw

/-- The objects whose parameters have been read, which the python tracer caches. -/
structure Seen where
  modules : List Nat
  optimizers : List Nat

/-- The parameters of an object that is seen for the first time. -/
def readOwner {P : Type} (raw : P → List RawTensorInfo) (seen : List Nat) :
    Option (OwnerInfo P) → List RawTensorInfo × List Nat
  | none => ([], seen)
  | some owner =>
    if owner.self ∈ seen then ([], seen)
    else (owner.parameters.flatMap raw, owner.self :: seen)

/-- The results in a uniform representation. -/
def flatten : Seen → List Result → List RawTensorInfo
  | _, [] => []
  | seen, .torchOp inputs :: results => inputs.flatMap OpInput.raw ++ flatten seen results
  | seen, .pyCall module optimizer :: results =>
    let (ofModule, modules) := readOwner ParameterInfo.raw seen.modules module
    let (ofOptimizer, optimizers) := readOwner OptimizedInfo.raw seen.optimizers optimizer
    ofModule ++ ofOptimizer ++ flatten ⟨modules, optimizers⟩ results
  | seen, .allocation ptr device allocSize :: results =>
    ⟨noTensorImpl, ptr, device, decide (allocSize < 0)⟩ :: flatten seen results
  | seen, .other :: results => flatten seen results

/-! ### Allocation IDs -/

/-- `key_t`. -/
def RawTensorInfo.key (t : RawTensorInfo) : Nat × Device := (t.storage, t.device)

/-- Observations of one storage have one allocation ID until it is freed. -/
def assignAllocationIds (versions : Nat × Device → Option Nat) (counter : Nat) :
    List RawTensorInfo → List Nat
  | [] => []
  | t :: tensors =>
    let id := (versions t.key).getD counter
    let counter := if (versions t.key).isSome then counter else counter + 1
    let versions := fun key =>
      if key = t.key then if t.isFree then none else some id else versions key
    id :: assignAllocationIds versions counter tensors

def allocationIds (tensors : List RawTensorInfo) : List Nat :=
  assignAllocationIds (fun _ => none) 1 tensors

/-- The allocation is of a tensor, so far as the observations show. -/
def inTensorSet (observations : List (RawTensorInfo × Nat)) (id : Nat) : Bool :=
  observations.any fun (t, allocation) => t.impl ≠ noTensorImpl && allocation = id

/-! ### Tensor IDs -/

/-- The pairs of `same_group_set`, as they are inserted: an allocation that a `TensorImpl` is seen
with and the first one that it was seen with, in order. -/
def sameGroup (implMap : Nat → Option Nat) : List (RawTensorInfo × Nat) → List (Nat × Nat)
  | [] => []
  | (t, allocation) :: observations =>
    if t.impl = noTensorImpl then sameGroup implMap observations
    else
      let first := (implMap t.impl).getD allocation
      let pair := if first < allocation then (first, allocation) else (allocation, first)
      pair :: sameGroup (fun impl => if impl = t.impl then some first else implMap impl) observations

/-- The order of pairs. -/
def pairLe (p q : Nat × Nat) : Prop := p.1 < q.1 ∨ p.1 = q.1 ∧ p.2 ≤ q.2

instance : DecidableRel pairLe := fun _ _ => inferInstanceAs (Decidable (_ ∨ _ ∧ _))

def uniquePairs (observations : List (RawTensorInfo × Nat)) : List (Nat × Nat) :=
  (sameGroup (fun _ => none) observations).dedup.insertionSort pairLe

/-- `id_map` and `current_id`. -/
structure IdMap where
  ids : Nat → Option Nat
  currentId : Nat

/-- `insert`, which changes nothing where the key is there. -/
def insertId (ids : Nat → Option Nat) (key value : Nat) : Nat → Option Nat := fun other =>
  if other = key then some ((ids key).getD value) else ids other

def coalesce (idMap : IdMap) (pair : Nat × Nat) : IdMap :=
  let id := (idMap.ids pair.1).getD idMap.currentId
  { ids := insertId (insertId idMap.ids pair.1 idMap.currentId) pair.2 id
    currentId := if (idMap.ids pair.1).isSome then idMap.currentId else idMap.currentId + 1 }

/-- The observations with their allocation IDs. -/
def observe (tensors : List RawTensorInfo) : List (RawTensorInfo × Nat) :=
  tensors.zip (allocationIds tensors)

/-- The tensor IDs of the observations, where one that is not of a tensor has none. There is no
result when `id_map.at` throws. -/
def calculateTensorIds (tensors : List RawTensorInfo) : Option (List (Option Nat)) :=
  let observations := observe tensors
  let kept := observations.filter fun (_, allocation) => inTensorSet observations allocation
  let idMap := (uniquePairs kept).foldl coalesce ⟨fun _ => none, 0⟩
  observations.mapM fun (_, allocation) =>
    if inTensorSet observations allocation then (idMap.ids allocation).map some else some none

def calculateUniqueTensorIds (sortedResults : List Result) : Option (List (Option Nat)) :=
  calculateTensorIds (flatten ⟨[], []⟩ sortedResults)

end TorchGcu.DataFlow

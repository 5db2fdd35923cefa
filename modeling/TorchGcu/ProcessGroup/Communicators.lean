import Mathlib.Logic.Function.Basic
import TorchGcu.ProcessGroup.StoreKeys

/-! The ranks of a process group as they create communicators: each rank runs its program of
calls, and `getECCLComm` agrees on an `ecclUniqueId` through a store whose `get` waits for
its key. -/
namespace TorchGcu.ProcessGroup

/-- Of `c10d::OpType` what `isP2POp` tells apart. -/
inductive OpType where
  | send
  | recv
  | collective
deriving DecidableEq, Repr

abbrev UniqueId := Nat

/-- A communicator, with the store key that its id was published under; the id of a
communicator of a rank with itself is not published. -/
structure ECCLComm where
  ecclUniqueId : UniqueId
  storeKey : Option String
deriving DecidableEq, Repr

/-- A call that needs a communicator. `batchP2P` says that the calling thread has ECCL groups
open. -/
inductive GroupCall where
  | collective (device : Nat) (batchP2P : Bool)
  | send (device dstRank : Nat) (batchP2P : Bool)
  | recv (device srcRank : Nat) (batchP2P : Bool)
deriving DecidableEq, Repr

/-- The arguments of `getECCLComm`. -/
structure CommRequest where
  deviceKey : String
  opType : OpType
  batchP2P : Bool
  p2pRank : Nat := 0
  isSendRecvSelf : Bool := false
deriving DecidableEq, Repr

/-- What `pointToPoint` asks `getECCLComm` for. -/
def pointToPointRequest (rank : Nat) (opType : OpType) (device peer : Nat) (batchP2P : Bool) :
    CommRequest :=
  if batchP2P then
    { deviceKey := getKeyFromDevice device, opType, batchP2P, p2pRank := rank }
  else
    { deviceKey := getKeySendRecv rank peer
      opType
      batchP2P
      p2pRank := if rank ≤ peer then 0 else 1
      isSendRecvSelf := rank = peer }

def GroupCall.request (rank : Nat) : GroupCall → CommRequest
  | .collective device batchP2P =>
    { deviceKey := getKeyFromDevice device, opType := .collective, batchP2P }
  | .send device dstRank batchP2P => pointToPointRequest rank .send device dstRank batchP2P
  | .recv device srcRank batchP2P => pointToPointRequest rank .recv device srcRank batchP2P

/-- How far a call of `getECCLComm` is that has not found its communicator. -/
inductive Joining where
  /-- Is about to set the key. -/
  | publishing (deviceKey : String) (ecclID : UniqueId) (storeKey : String)
  /-- Waits for the key. -/
  | waiting (deviceKey storeKey : String)
  /-- Has the id. -/
  | holding (deviceKey : String) (comm : ECCLComm)
deriving DecidableEq, Repr

structure Rank where
  program : List GroupCall := []
  /-- The calls begun so far. -/
  next : Nat := 0
  ecclCommCounter : Nat := 0
  devECCLCommMap : String → Option ECCLComm := fun _ => none
  joining : Option Joining := none
  storeKeys : List String := []

/-- The ranks, and all that has been written to the store, newest entry first. -/
structure Network where
  ranks : Nat → Rank := fun _ => {}
  store : List (String × UniqueId) := []

def Network.setRank (net : Network) (r : Nat) (rank : Rank) : Network :=
  { net with ranks := Function.update net.ranks r rank }

/-- The store key under which `broadcastUniqueECCLID` passes the id on. -/
def storeKey (isSingleP2POp : Bool) (p2pKey : String) (rank : Rank) : String × Rank :=
  if !isSingleP2POp then
    (counterKey rank.ecclCommCounter, { rank with ecclCommCounter := rank.ecclCommCounter + 1 })
  else
    (p2pKey, rank)

/-- `broadcastUniqueECCLID`, up to the operation on the store. -/
def broadcastUniqueECCLID (r : Nat) (rank : Rank) (ecclID : UniqueId) (isSingleP2POp : Bool)
    (p2pKey : String) (p2pRank : Nat) : Rank :=
  let (key, rank) := storeKey isSingleP2POp p2pKey rank
  if r = 0 || (isSingleP2POp && p2pRank = 0) then
    { rank with joining := some (.publishing p2pKey ecclID key) }
  else
    { rank with joining := some (.waiting p2pKey key) }

section P2POp
-- `c10d::isP2POp`
variable (isP2POp : OpType → Bool → Bool)

/-- `getECCLComm`, up to the operation on the store; a cached communicator ends the call.
`ecclID` is what `ecclGetUniqueId` answers. -/
def getECCLComm (r : Nat) (rank : Rank) (ecclID : UniqueId) (request : CommRequest) : Rank :=
  match rank.devECCLCommMap request.deviceKey with
  | some _ => rank
  | none =>
    if !request.isSendRecvSelf then
      broadcastUniqueECCLID r rank ecclID (isP2POp request.opType request.batchP2P)
        request.deviceKey request.p2pRank
    else
      { rank with joining := some (.holding request.deviceKey ⟨ecclID, none⟩) }

inductive NetworkStep (size : Nat) (net : Network) : Nat → Network → Prop where
  | call {r : Nat} {call : GroupCall} (ecclID : UniqueId) (member : r < size)
      (free : (net.ranks r).joining = none)
      (issued : (net.ranks r).program[(net.ranks r).next]? = some call) :
      NetworkStep size net r (net.setRank r (getECCLComm isP2POp r
        { net.ranks r with next := (net.ranks r).next + 1 } ecclID (call.request r)))
  /-- `store_->set`. -/
  | set {r : Nat} {deviceKey key : String} {ecclID : UniqueId} (member : r < size)
      (at_ : (net.ranks r).joining = some (.publishing deviceKey ecclID key)) :
      NetworkStep size net r
        { net.setRank r
            { net.ranks r with
              joining := some (.holding deviceKey ⟨ecclID, some key⟩)
              storeKeys := (net.ranks r).storeKeys ++ [key] } with
          store := (key, ecclID) :: net.store }
  /-- `store_->get`, once the key is there. -/
  | get {r : Nat} {deviceKey key : String} {ecclID : UniqueId} (member : r < size)
      (at_ : (net.ranks r).joining = some (.waiting deviceKey key))
      (published : net.store.lookup key = some ecclID) :
      NetworkStep size net r (net.setRank r
        { net.ranks r with joining := some (.holding deviceKey ⟨ecclID, some key⟩) })
  /-- The communicator enters the cache. -/
  | cache {r : Nat} {deviceKey : String} {comm : ECCLComm} (member : r < size)
      (at_ : (net.ranks r).joining = some (.holding deviceKey comm)) :
      NetworkStep size net r (net.setRank r
        { net.ranks r with
          joining := none
          devECCLCommMap :=
            Function.update (net.ranks r).devECCLCommMap deviceKey (some comm) })

end P2POp

/-- The ranks at the start of their programs. -/
def Network.start (programs : Nat → List GroupCall) : Network :=
  { ranks := fun r => { program := programs r } }

end TorchGcu.ProcessGroup

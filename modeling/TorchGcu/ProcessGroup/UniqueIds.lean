import Mathlib.Data.List.Nodup
import TorchGcu.Logic.Runs
import TorchGcu.ProcessGroup.Communicators

/-! The ids that ranks agree on. The counter of a rank is the number of devices its
collectives and coalesced point-to-point calls have used so far, so that the n-th device a
rank uses gets the id that rank 0 published for its own n-th one. -/
namespace TorchGcu.ProcessGroup
open ProgramLogic

/-- What the documentation of `c10d::isP2POp` says: a batched operation does not count. -/
structure P2POps (isP2POp : OpType → Bool → Bool) : Prop where
  batch : ∀ opType, isP2POp opType true = false
  collective : isP2POp .collective false = false
  send : isP2POp .send false = true
  recv : isP2POp .recv false = true

variable {isP2POp : OpType → Bool → Bool} {size : Nat} {r s : Nat} {rank : Rank}
variable {store store' : List (String × UniqueId)} {net net' : Network}
variable {key : String} {call : GroupCall}

/-- The cache key of a call that uses a communicator of the whole group. -/
def GroupCall.groupKey : GroupCall → Option String
  | .collective device _ => some (getKeyFromDevice device)
  | .send device _ batchP2P | .recv device _ batchP2P =>
    if batchP2P then some (getKeyFromDevice device) else none

/-- The keys of the whole group in the order in which the calls first use them. -/
def firstUses (calls : List GroupCall) : List String := (calls.filterMap (·.groupKey)).eraseDups

/-- Those that the calls begun so far have used. -/
def Rank.joined (rank : Rank) : List String := firstUses (rank.program.take rank.next)

def Joining.deviceKey : Joining → String
  | .publishing deviceKey _ _ => deviceKey
  | .waiting deviceKey _ => deviceKey
  | .holding deviceKey _ => deviceKey

/-- The rank has a communicator under the key, or is getting one. -/
def Rank.Holds (rank : Rank) (key : String) : Prop :=
  (rank.devECCLCommMap key).isSome = true ∨ ∃ joining, rank.joining = some joining ∧
    joining.deviceKey = key

/-- The store key that belongs to a cache key of a rank. -/
def Names (r : Nat) (joined : List String) (key : String) (storeKey : Option String) : Prop :=
  (key ∈ joined ∧ storeKey = some (counterKey (joined.idxOf key))) ∨
    ∃ peer, key = getKeySendRecv r peer ∧ storeKey = if r = peer then none else some key

/-- The rank that sets a store key: rank 0 those of the counter, the lower rank of a pair that
of the pair. -/
def Publishes (r : Nat) (storeKey : String) : Prop :=
  (r = 0 ∧ ∃ n, storeKey = counterKey n) ∨ ∃ high, r < high ∧ storeKey = getKeySendRecv r high

/-- A communicator has the id that was published under the store key of its cache key. -/
def ECCLComm.Ok (r : Nat) (joined : List String) (store : List (String × UniqueId)) (key : String)
    (comm : ECCLComm) : Prop :=
  Names r joined key comm.storeKey ∧
    ∀ storeKey, comm.storeKey = some storeKey → (storeKey, comm.ecclUniqueId) ∈ store

def JoiningOk (r : Nat) (joined : List String) (store : List (String × UniqueId)) :
    Joining → Prop
  | .publishing key _ storeKey => Names r joined key (some storeKey) ∧ Publishes r storeKey
  | .waiting key storeKey => Names r joined key (some storeKey)
  | .holding key comm => comm.Ok r joined store key

structure Rank.Ok (r : Nat) (store : List (String × UniqueId)) (rank : Rank) : Prop where
  counter : rank.ecclCommCounter = rank.joined.length
  held : ∀ key ∈ rank.joined, rank.Holds key
  cached : ∀ key comm, rank.devECCLCommMap key = some comm → comm.Ok r rank.joined store key
  joining : ∀ joining, rank.joining = some joining → JoiningOk r rank.joined store joining

/-! ### Keys -/

theorem Publishes.unique {storeKey : String} (first : Publishes r storeKey)
    (second : Publishes s storeKey) : r = s := by
  rcases first with ⟨zero, n, name⟩ | ⟨high, less, name⟩ <;>
    rcases second with ⟨zero', n', name'⟩ | ⟨high', less', name'⟩
  · omega
  · exact (counterKey_ne_sendRecv (name.symm.trans name')).elim
  · exact (counterKey_ne_sendRecv (name'.symm.trans name)).elim
  · rcases getKeySendRecv_inj (name.symm.trans name') with ⟨same, _⟩ | ⟨cross, cross'⟩
    · exact same
    · omega

/-- What a call asks for: a communicator of the group, or one of a pair. -/
theorem request_cases (ops : P2POps isP2POp) (r : Nat) (call : GroupCall) :
    (∃ device, call.groupKey = some (getKeyFromDevice device) ∧
      (call.request r).deviceKey = getKeyFromDevice device ∧
      isP2POp (call.request r).opType (call.request r).batchP2P = false ∧
      (call.request r).isSendRecvSelf = false) ∨
    (call.groupKey = none ∧ ∃ peer, (call.request r).deviceKey = getKeySendRecv r peer ∧
      isP2POp (call.request r).opType (call.request r).batchP2P = true ∧
      (call.request r).p2pRank = (if r ≤ peer then 0 else 1) ∧
      (call.request r).isSendRecvSelf = decide (r = peer)) := by
  cases call with
  | collective device batchP2P =>
    refine .inl ⟨device, rfl, rfl, ?_, rfl⟩
    cases batchP2P
    · exact ops.collective
    · exact ops.batch _
  | send device dstRank batchP2P =>
    cases batchP2P
    · exact .inr ⟨rfl, dstRank, rfl, ops.send, rfl, rfl⟩
    · exact .inl ⟨device, rfl, rfl, ops.batch _, rfl⟩
  | recv device srcRank batchP2P =>
    cases batchP2P
    · exact .inr ⟨rfl, srcRank, rfl, ops.recv, rfl, rfl⟩
    · exact .inl ⟨device, rfl, rfl, ops.batch _, rfl⟩

theorem eraseDups_concat (keys : List String) (key : String) :
    (keys ++ [key]).eraseDups =
      if key ∈ keys then keys.eraseDups else keys.eraseDups ++ [key] := by
  rw [List.eraseDups_append]
  by_cases used : key ∈ keys <;> simp [List.removeAll, List.eraseDups_cons, used]

theorem firstUses_append (calls : List GroupCall) (call : GroupCall) :
    firstUses (calls ++ [call]) =
      match call.groupKey with
      | none => firstUses calls
      | some key => if key ∈ firstUses calls then firstUses calls else firstUses calls ++ [key] := by
  unfold firstUses
  cases found : call.groupKey with
  | none => simp [found]
  | some key =>
    have one : [call].filterMap (·.groupKey) = [key] := by simp [found]
    rw [List.filterMap_append, one, eraseDups_concat]
    simp only [List.mem_eraseDups]

theorem firstUses_take (calls more : List GroupCall) :
    firstUses calls <+: firstUses (calls ++ more) := by
  unfold firstUses
  rw [List.filterMap_append, List.eraseDups_append]
  exact List.prefix_append _ _

theorem joined_next (issued : rank.program[rank.next]? = some call) :
    ({ rank with next := rank.next + 1 } : Rank).joined =
      match call.groupKey with
      | none => rank.joined
      | some key => if key ∈ rank.joined then rank.joined else rank.joined ++ [key] := by
  unfold Rank.joined
  rw [List.take_add_one, issued]
  exact firstUses_append _ call

theorem joined_take (rank : Rank) : rank.joined <+: firstUses rank.program := by
  have split := firstUses_take (rank.program.take rank.next) (rank.program.drop rank.next)
  rwa [List.take_append_drop] at split

theorem Names.extend {joined joined' : List String} {storeKey : Option String}
    (longer : joined <+: joined') (names : Names r joined key storeKey) :
    Names r joined' key storeKey := by
  obtain ⟨more, rfl⟩ := longer
  rcases names with ⟨member, name⟩ | pair
  · refine .inl ⟨List.mem_append_left _ member, ?_⟩
    rw [name, List.idxOf_append_of_mem member]
  · exact .inr pair

theorem ECCLComm.Ok.extend {joined joined' : List String} {comm : ECCLComm}
    (longer : joined <+: joined') (more : ∀ entry ∈ store, entry ∈ store')
    (ok : comm.Ok r joined store key) : comm.Ok r joined' store' key :=
  ⟨ok.1.extend longer, fun storeKey name => more _ (ok.2 storeKey name)⟩

theorem JoiningOk.extend {joined joined' : List String} {joining : Joining}
    (longer : joined <+: joined') (more : ∀ entry ∈ store, entry ∈ store')
    (ok : JoiningOk r joined store joining) : JoiningOk r joined' store' joining := by
  cases joining with
  | publishing deviceKey ecclID storeKey => exact ⟨ok.1.extend longer, ok.2⟩
  | waiting deviceKey storeKey => exact Names.extend longer ok
  | holding deviceKey comm => exact ECCLComm.Ok.extend longer more ok

theorem Rank.Ok.more (more : ∀ entry ∈ store, entry ∈ store') (ok : rank.Ok r store) :
    rank.Ok r store' := by
  constructor
  · exact ok.counter
  · exact ok.held
  · exact fun key comm found => (ok.cached key comm found).extend List.prefix_rfl more
  · exact fun joining found => (ok.joining joining found).extend List.prefix_rfl more

/-! ### Steps -/

/-- What a rank does that takes up a call: it has the communicator, or it takes a number for
one of the group, or it makes one for itself, or it turns to the other rank of a pair. -/
theorem getECCLComm_cases (ops : P2POps isP2POp) (r : Nat) (rank : Rank) (call : GroupCall)
    (ecclID : UniqueId) :
    ((rank.devECCLCommMap (call.request r).deviceKey).isSome = true ∧
      getECCLComm isP2POp r rank ecclID (call.request r) = rank) ∨
    (rank.devECCLCommMap (call.request r).deviceKey = none ∧
      ((∃ device, call.groupKey = some (getKeyFromDevice device) ∧
        (call.request r).deviceKey = getKeyFromDevice device ∧
        getECCLComm isP2POp r rank ecclID (call.request r) =
          { rank with
            ecclCommCounter := rank.ecclCommCounter + 1
            joining := some (if r = 0 then
              .publishing (getKeyFromDevice device) ecclID (counterKey rank.ecclCommCounter)
              else .waiting (getKeyFromDevice device) (counterKey rank.ecclCommCounter)) }) ∨
      (call.groupKey = none ∧ ∃ peer, (call.request r).deviceKey = getKeySendRecv r peer ∧
        getECCLComm isP2POp r rank ecclID (call.request r) =
          { rank with
            joining := some (if r = peer then .holding (getKeySendRecv r peer) ⟨ecclID, none⟩
              else if r < peer then
                .publishing (getKeySendRecv r peer) ecclID (getKeySendRecv r peer)
              else .waiting (getKeySendRecv r peer) (getKeySendRecv r peer)) }))) := by
  unfold getECCLComm
  cases cached : rank.devECCLCommMap (call.request r).deviceKey with
  | some comm => exact .inl ⟨rfl, rfl⟩
  | none =>
    refine .inr ⟨rfl, ?_⟩
    rcases request_cases ops r call with
      ⟨device, group, key, batch, other⟩ | ⟨group, peer, key, single, p2pRank, self⟩
    · refine .inl ⟨device, group, key, ?_⟩
      simp only [other, batch, key, broadcastUniqueECCLID, storeKey, Bool.not_false, if_true,
        Bool.false_and, Bool.or_false, decide_eq_true_eq]
      split <;> rfl
    · refine .inr ⟨group, peer, key, ?_⟩
      simp only [self, single, key, p2pRank, broadcastUniqueECCLID, storeKey]
      by_cases same : r = peer
      · simp [same]
      · by_cases lower : r < peer
        · have le : r ≤ peer := by omega
          simp [same, lower, le]
        · have above : ¬ r ≤ peer := by omega
          have later : ¬ r = 0 := by omega
          simp [same, lower, above, later]

/-- The cache key of a call of the group that finds its communicator has been joined. -/
theorem Rank.Ok.device_joined (ok : rank.Ok r store) {device : Nat}
    (cached : (rank.devECCLCommMap (getKeyFromDevice device)).isSome = true) :
    getKeyFromDevice device ∈ rank.joined := by
  obtain ⟨comm, found⟩ := Option.isSome_iff_exists.mp cached
  rcases (ok.cached _ comm found).1 with ⟨member, _⟩ | ⟨peer, pair, _⟩
  · exact member
  · exact (getKeyFromDevice_ne_sendRecv pair).elim

theorem Rank.Ok.not_joined (ok : rank.Ok r store) (free : rank.joining = none)
    (absent : rank.devECCLCommMap key = none) : key ∉ rank.joined := by
  intro member
  rcases ok.held key member with cached | ⟨joining, busy, _⟩
  · simp [absent] at cached
  · simp [free] at busy

/-- A rank that begins a call, with as much of `joined` as before or one key more. -/
theorem Rank.Ok.begin (ok : rank.Ok r store) (free : rank.joining = none) {begun : Rank}
    {joining : Joining} {joined : List String} (all : begun.joined = joined)
    (map : begun.devECCLCommMap = rank.devECCLCommMap) (starts : begun.joining = some joining)
    (longer : rank.joined <+: joined) (counter : begun.ecclCommCounter = joined.length)
    (new : ∀ key ∈ joined, key ∈ rank.joined ∨ key = joining.deviceKey)
    (fits : JoiningOk r joined store joining) : begun.Ok r store := by
  subst all
  constructor
  · exact counter
  · intro key member
    rcases new key member with old | rfl
    · rcases ok.held key old with cached | ⟨joining, busy, _⟩
      · exact .inl (map ▸ cached)
      · simp [free] at busy
    · exact .inr ⟨joining, starts, rfl⟩
  · intro key comm found
    exact (ok.cached key comm (map ▸ found)).extend longer fun _ member => member
  · intro joining' found
    cases starts.symm.trans found
    exact fits

/-- A rank that takes up a call. -/
theorem getECCLComm_ok (ops : P2POps isP2POp) (ok : rank.Ok r store) (free : rank.joining = none)
    (issued : rank.program[rank.next]? = some call) (ecclID : UniqueId) :
    (getECCLComm isP2POp r { rank with next := rank.next + 1 } ecclID (call.request r)).Ok r
      store := by
  have joined := joined_next issued
  rcases getECCLComm_cases ops r { rank with next := rank.next + 1 } call ecclID with
    ⟨cached, same⟩ | ⟨absent, ⟨device, group, key, begun⟩ | ⟨group, peer, key, begun⟩⟩
  · have unchanged : ({ rank with next := rank.next + 1 } : Rank).joined = rank.joined := by
      rw [joined]
      rcases request_cases ops r call with ⟨device, group, key, _⟩ | ⟨group, _⟩
      · rw [key] at cached
        simp [group, ok.device_joined cached]
      · simp [group]
    rw [same]
    constructor
    · exact ok.counter.trans (congrArg _ unchanged.symm)
    · exact fun key member => ok.held key (unchanged ▸ member)
    · exact fun key comm found => unchanged ▸ ok.cached key comm found
    · exact fun joining found => unchanged ▸ ok.joining joining found
  · have fresh : getKeyFromDevice device ∉ rank.joined := ok.not_joined free (key ▸ absent)
    have grown : ({ rank with next := rank.next + 1 } : Rank).joined =
        rank.joined ++ [getKeyFromDevice device] := by
      rw [joined, group]
      simp [fresh]
    have name : Names r (rank.joined ++ [getKeyFromDevice device]) (getKeyFromDevice device)
        (some (counterKey rank.ecclCommCounter)) := by
      refine .inl ⟨List.mem_append_right _ List.mem_cons_self, ?_⟩
      simp [List.idxOf_append_of_notMem fresh, ok.counter]
    rw [begun]
    refine ok.begin free grown rfl rfl (List.prefix_append _ _) ?_ ?_ ?_
    · simp [ok.counter]
    · intro key member
      rcases List.mem_append.mp member with old | new
      · exact .inl old
      · refine .inr ((List.mem_singleton.mp new).trans ?_)
        split <;> rfl
    · split
      case isTrue first => exact ⟨name, .inl ⟨first, _, rfl⟩⟩
      case isFalse => exact name
  · have unchanged : ({ rank with next := rank.next + 1 } : Rank).joined = rank.joined := by
      rw [joined, group]
    rw [begun]
    refine ok.begin free unchanged rfl rfl List.prefix_rfl ok.counter (fun _ old => .inl old) ?_
    split
    case isTrue same =>
      refine ⟨.inr ⟨peer, rfl, (if_pos same).symm⟩, fun _ never => by cases never⟩
    case isFalse other =>
      have name : Names r rank.joined (getKeySendRecv r peer) (some (getKeySendRecv r peer)) :=
        .inr ⟨peer, rfl, (if_neg other).symm⟩
      split
      case isTrue lower => exact ⟨name, .inr ⟨peer, lower, rfl⟩⟩
      case isFalse => exact name

/-! ### The store -/

/-- A store key has been written only by a rank that has it in use: below the counter of rank
0, or held by the lower rank of its pair. -/
def Network.Written (net : Network) (storeKey : String) : Prop :=
  (∃ n, storeKey = counterKey n ∧ n < (net.ranks 0).ecclCommCounter) ∨
    ∃ low high, low < high ∧ storeKey = getKeySendRecv low high ∧
      (net.ranks low).Holds storeKey

structure Network.Ok (net : Network) : Prop where
  ranks : ∀ r, (net.ranks r).Ok r net.store
  nodup : (net.store.map Prod.fst).Nodup
  written : ∀ storeKey ∈ net.store.map Prod.fst, net.Written storeKey
  unwritten : ∀ {r deviceKey ecclID storeKey},
    (net.ranks r).joining = some (.publishing deviceKey ecclID storeKey) →
      storeKey ∉ net.store.map Prod.fst

theorem Network.Ok.start (programs : Nat → List GroupCall) : (Network.start programs).Ok := by
  constructor
  · intro r
    constructor <;> simp [Network.start, Rank.joined, firstUses]
  · exact List.nodup_nil
  · simp [Network.start]
  · intro r deviceKey ecclID storeKey never
    cases never

/-- What a rank keeps at every step of its own: the keys it holds, and its counter. -/
theorem Network.Written.mono {storeKey : String} (written : net.Written storeKey)
    (counter : (net.ranks 0).ecclCommCounter ≤ (net'.ranks 0).ecclCommCounter)
    (holds : ∀ r, (net.ranks r).Holds storeKey → (net'.ranks r).Holds storeKey) :
    net'.Written storeKey := by
  rcases written with ⟨n, name, less⟩ | ⟨low, high, less, name, held⟩
  · exact .inl ⟨n, name, Nat.lt_of_lt_of_le less counter⟩
  · exact .inr ⟨low, high, less, name, holds low held⟩

/-- A step of one rank that writes nothing. -/
theorem Network.Ok.setRank (ok : net.Ok) {rank : Rank} (after : rank.Ok r net.store)
    (counter : (net.ranks r).ecclCommCounter ≤ rank.ecclCommCounter)
    (holds : ∀ key, (net.ranks r).Holds key → rank.Holds key)
    (unwritten : ∀ {deviceKey ecclID storeKey},
      rank.joining = some (.publishing deviceKey ecclID storeKey) →
        storeKey ∉ net.store.map Prod.fst) : (net.setRank r rank).Ok := by
  have at_ : ∀ s, (net.setRank r rank).ranks s = if s = r then rank else net.ranks s :=
    fun s => Function.update_apply ..
  constructor
  · intro s
    rw [at_]
    split
    case isTrue same => exact same ▸ after
    case isFalse => exact ok.ranks s
  · exact ok.nodup
  · intro storeKey member
    refine (ok.written storeKey member).mono ?_ fun s held => ?_
    · rw [at_]
      split
      case isTrue same => exact same ▸ counter
      case isFalse => exact Nat.le_refl _
    · rw [at_]
      split
      case isTrue same => exact holds _ (same ▸ held)
      case isFalse => exact held
  · intro s deviceKey ecclID storeKey publishing
    rw [at_] at publishing
    split at publishing
    case isTrue => exact unwritten publishing
    case isFalse => exact ok.unwritten publishing

theorem Rank.holds_of_free (free : rank.joining = none) (held : rank.Holds key) :
    (rank.devECCLCommMap key).isSome = true := by
  rcases held with cached | ⟨joining, busy, _⟩
  · exact cached
  · simp [free] at busy

theorem Network.Ok.takeCall (ops : P2POps isP2POp) (ok : net.Ok)
    (free : (net.ranks r).joining = none)
    (issued : (net.ranks r).program[(net.ranks r).next]? = some call) (ecclID : UniqueId) :
    (net.setRank r (getECCLComm isP2POp r
      { net.ranks r with next := (net.ranks r).next + 1 } ecclID (call.request r))).Ok := by
  have after := getECCLComm_ok ops (ok.ranks r) free issued ecclID
  have kept : ∀ {begun : Rank}, begun.devECCLCommMap = (net.ranks r).devECCLCommMap →
      ∀ key, (net.ranks r).Holds key → begun.Holds key := by
    intro begun map key held
    exact .inl (map ▸ Rank.holds_of_free free held)
  rcases getECCLComm_cases ops r { net.ranks r with next := (net.ranks r).next + 1 } call ecclID
    with ⟨cached, begun⟩ | ⟨absent, ⟨device, group, key, begun⟩ | ⟨group, peer, key, begun⟩⟩ <;>
    rw [begun] at after ⊢
  · refine ok.setRank after (Nat.le_refl _) (kept rfl) fun publishing => ?_
    simp [free] at publishing
  · refine ok.setRank after (Nat.le_succ _) (kept rfl) fun publishing member => ?_
    simp only at publishing
    split at publishing
    case isTrue first =>
      cases publishing
      subst first
      rcases ok.written _ member with ⟨n, name, less⟩ | ⟨low, high, _, name, _⟩
      · have same := counterKey_injective name
        omega
      · exact counterKey_ne_sendRecv name
    case isFalse => cases publishing
  · refine ok.setRank after (Nat.le_refl _) (kept rfl) fun publishing member => ?_
    simp only at publishing
    split at publishing
    case isTrue => cases publishing
    case isFalse other =>
      split at publishing
      case isTrue lower =>
        cases publishing
        rcases ok.written _ member with ⟨n, name, _⟩ | ⟨low, high, less, name, held⟩
        · exact counterKey_ne_sendRecv name.symm
        · have same : r = low := by
            rcases getKeySendRecv_inj name with ⟨same, _⟩ | ⟨cross, cross'⟩ <;> omega
          subst same
          have cached := Rank.holds_of_free free held
          rw [← key, absent] at cached
          cases cached
      case isFalse => cases publishing

/-- The store key of a communicator that the rank is getting. -/
theorem Names.published {joined : List String} {storeKey : String}
    (names : Names r joined key (some storeKey)) :
    (key ∈ joined ∧ storeKey = counterKey (joined.idxOf key)) ∨
      ∃ peer, key = getKeySendRecv r peer ∧ r ≠ peer ∧ storeKey = key := by
  rcases names with ⟨member, name⟩ | ⟨peer, pair, name⟩
  · exact .inl ⟨member, Option.some.inj name⟩
  · split at name
    · cases name
    · exact .inr ⟨peer, pair, ‹_›, Option.some.inj name⟩

theorem Network.Ok.set (ok : net.Ok) {deviceKey storeKey : String} {ecclID : UniqueId}
    (at_ : (net.ranks r).joining = some (.publishing deviceKey ecclID storeKey)) :
    Network.Ok
      { net.setRank r
          { net.ranks r with
            joining := some (.holding deviceKey ⟨ecclID, some storeKey⟩)
            storeKeys := (net.ranks r).storeKeys ++ [storeKey] } with
        store := (storeKey, ecclID) :: net.store } := by
  obtain ⟨names, publishes⟩ := (ok.ranks r).joining _ at_
  have fresh := ok.unwritten at_
  have more : ∀ entry ∈ net.store, entry ∈ (storeKey, ecclID) :: net.store :=
    fun _ member => List.mem_cons_of_mem _ member
  constructor
  · intro s
    by_cases same : s = r
    · subst same
      have before := (ok.ranks s).more more
      simp only [Network.setRank, Function.update_self]
      constructor
      · exact before.counter
      · intro key member
        rcases before.held key member with cached | ⟨joining, busy, named⟩
        · exact .inl cached
        · cases at_.symm.trans busy
          exact .inr ⟨_, rfl, named⟩
      · exact before.cached
      · intro joining found
        cases found
        refine ⟨names, fun key name => ?_⟩
        cases name
        exact List.mem_cons_self
    · simp only [Network.setRank, Function.update_of_ne same]
      exact (ok.ranks s).more more
  · exact List.nodup_cons.mpr ⟨fresh, ok.nodup⟩
  · have holds : ∀ s key, (net.ranks s).Holds key →
        ((net.setRank r
          { net.ranks r with
            joining := some (.holding deviceKey ⟨ecclID, some storeKey⟩)
            storeKeys := (net.ranks r).storeKeys ++ [storeKey] }).ranks s).Holds key := by
      intro s key held
      by_cases same : s = r
      · subst same
        simp only [Network.setRank, Function.update_self]
        rcases held with cached | ⟨joining, busy, named⟩
        · exact .inl cached
        · cases at_.symm.trans busy
          exact .inr ⟨_, rfl, named⟩
      · simpa only [Network.setRank, Function.update_of_ne same] using held
    have counter : ((net.setRank r
          { net.ranks r with
            joining := some (.holding deviceKey ⟨ecclID, some storeKey⟩)
            storeKeys := (net.ranks r).storeKeys ++ [storeKey] }).ranks 0).ecclCommCounter =
        (net.ranks 0).ecclCommCounter := by
      by_cases same : 0 = r
      · subst same
        simp [Network.setRank]
      · simp [Network.setRank, Function.update_of_ne same]
    intro key member
    rcases List.mem_cons.mp member with rfl | old
    · rcases names.published with ⟨member, name⟩ | ⟨peer, pair, other, name⟩ <;>
        rcases publishes with ⟨first, n, name'⟩ | ⟨high, less, name'⟩
      · refine .inl ⟨_, name, counter ▸ ?_⟩
        subst first
        rw [(ok.ranks 0).counter]
        exact List.idxOf_lt_length_of_mem member
      · exact (counterKey_ne_sendRecv (name.symm.trans name')).elim
      · exact (counterKey_ne_sendRecv (name'.symm.trans (name.trans pair))).elim
      · refine .inr ⟨r, high, less, name',
          .inr ⟨.holding deviceKey ⟨ecclID, some key⟩, ?_, name.symm⟩⟩
        simp only [Network.setRank, Function.update_self]
    · exact (ok.written key old).mono (Nat.le_of_eq counter.symm) fun s => holds s key
  · intro s key ecclID' storeKey' publishing
    by_cases same : s = r
    · subst same
      simp [Network.setRank] at publishing
    · simp only [Network.setRank, Function.update_of_ne same] at publishing
      have other : storeKey' ≠ storeKey := by
        rintro rfl
        exact same (((ok.ranks s).joining _ publishing).2.unique publishes)
      simpa [other] using ok.unwritten publishing

theorem Network.Ok.get (ok : net.Ok) {deviceKey storeKey : String} {ecclID : UniqueId}
    (at_ : (net.ranks r).joining = some (.waiting deviceKey storeKey))
    (published : net.store.lookup storeKey = some ecclID) :
    (net.setRank r
      { net.ranks r with
        joining := some (.holding deviceKey ⟨ecclID, some storeKey⟩) }).Ok := by
  have before := ok.ranks r
  have names : Names r (net.ranks r).joined deviceKey (some storeKey) := before.joining _ at_
  have holds : ∀ key, (net.ranks r).Holds key →
      Rank.Holds { net.ranks r with
        joining := some (.holding deviceKey ⟨ecclID, some storeKey⟩) } key := by
    intro key held
    rcases held with cached | ⟨joining, busy, named⟩
    · exact .inl cached
    · cases at_.symm.trans busy
      exact .inr ⟨_, rfl, named⟩
  refine ok.setRank ?_ (Nat.le_refl _) holds fun never => by cases never
  constructor
  · exact before.counter
  · exact fun key member => holds key (before.held key member)
  · exact before.cached
  · intro joining found
    cases found
    refine ⟨names, fun key name => ?_⟩
    cases name
    obtain ⟨newer, older, split, _⟩ := List.lookup_eq_some_iff.mp published
    exact split ▸ List.mem_append_right _ List.mem_cons_self

theorem Network.Ok.cache (ok : net.Ok) {deviceKey : String} {comm : ECCLComm}
    (at_ : (net.ranks r).joining = some (.holding deviceKey comm)) :
    (net.setRank r
      { net.ranks r with
        joining := none
        devECCLCommMap :=
          Function.update (net.ranks r).devECCLCommMap deviceKey (some comm) }).Ok := by
  have before := ok.ranks r
  have holds : ∀ key, (net.ranks r).Holds key →
      Rank.Holds { net.ranks r with
        joining := none
        devECCLCommMap :=
          Function.update (net.ranks r).devECCLCommMap deviceKey (some comm) } key := by
    intro key held
    refine .inl ?_
    by_cases same : key = deviceKey
    · subst same
      simp
    · simp only [Function.update_of_ne same]
      rcases held with cached | ⟨joining, busy, named⟩
      · exact cached
      · cases at_.symm.trans busy
        exact (same named.symm).elim
  refine ok.setRank ?_ (Nat.le_refl _) holds fun never => by cases never
  constructor
  · exact before.counter
  · exact fun key member => holds key (before.held key member)
  · intro key other found
    by_cases same : key = deviceKey
    · subst same
      simp only [Function.update_self, Option.some.injEq] at found
      subst found
      exact before.joining _ at_
    · simp only [Function.update_of_ne same] at found
      exact before.cached key other found
  · intro joining never
    cases never

theorem NetworkStep.ok (ops : P2POps isP2POp) (ok : net.Ok)
    (taken : NetworkStep isP2POp size net r net') : net'.Ok := by
  cases taken with
  | call ecclID _ free issued => exact ok.takeCall ops free issued ecclID
  | set _ at_ => exact ok.set at_
  | get _ at_ published => exact ok.get at_ published
  | cache _ at_ => exact ok.cache at_

theorem broadcastUniqueECCLID_program (r : Nat) (rank : Rank) (ecclID : UniqueId) (single : Bool)
    (p2pKey : String) (p2pRank : Nat) :
    (broadcastUniqueECCLID r rank ecclID single p2pKey p2pRank).program = rank.program := by
  unfold broadcastUniqueECCLID storeKey
  cases single <;> simp only [Bool.not_false, Bool.not_true, if_true] <;> split <;> rfl

theorem getECCLComm_program (r : Nat) (rank : Rank) (ecclID : UniqueId) (request : CommRequest) :
    (getECCLComm isP2POp r rank ecclID request).program = rank.program := by
  unfold getECCLComm
  split
  · rfl
  · split
    · exact broadcastUniqueECCLID_program _ _ _ _ _ _
    · rfl

theorem setRank_program {rank : Rank} (same : rank.program = (net.ranks r).program) (s : Nat) :
    ((net.setRank r rank).ranks s).program = (net.ranks s).program := by
  by_cases here : s = r
  · subst here
    simpa [Network.setRank] using same
  · simp [Network.setRank, Function.update_of_ne here]

theorem NetworkStep.program (taken : NetworkStep isP2POp size net r net') (s : Nat) :
    (net'.ranks s).program = (net.ranks s).program := by
  cases taken with
  | call ecclID _ _ _ =>
    apply setRank_program
    exact getECCLComm_program _ _ _ _
  | set _ _ =>
    show ((net.setRank r _).ranks s).program = _
    apply setRank_program
    rfl
  | get _ _ _ =>
    apply setRank_program
    rfl
  | cache _ _ =>
    apply setRank_program
    rfl

/-! ### Agreement -/

/-- Any two ranks first use their devices, in collectives and coalesced point-to-point calls,
in the same order, as far as they go. -/
def SameOrder (size : Nat) (programs : Nat → List GroupCall) : Prop :=
  ∀ r < size, ∀ s < size, firstUses (programs r) <+: firstUses (programs s) ∨
    firstUses (programs s) <+: firstUses (programs r)

/-- Ranks that have the same communicator have the same id, ids of different communicators
were published under different keys, and no key has been written twice. -/
structure IdsAgree (size : Nat) (net : Network) : Prop where
  agree : ∀ {r s key comm comm'}, r < size → s < size →
    (net.ranks r).devECCLCommMap key = some comm → (net.ranks s).devECCLCommMap key = some comm' →
      comm.ecclUniqueId = comm'.ecclUniqueId
  apart : ∀ {r s key key' comm comm' storeKey storeKey'}, r < size → s < size →
    (net.ranks r).devECCLCommMap key = some comm → (net.ranks s).devECCLCommMap key' = some comm' →
      key ≠ key' → comm.storeKey = some storeKey → comm'.storeKey = some storeKey' →
        storeKey ≠ storeKey'
  published : ∀ {r key comm storeKey}, (net.ranks r).devECCLCommMap key = some comm →
    comm.storeKey = some storeKey → (storeKey, comm.ecclUniqueId) ∈ net.store
  unpublished : ∀ {r key comm}, (net.ranks r).devECCLCommMap key = some comm →
    comm.storeKey = none → key = getKeySendRecv r r
  once : (net.store.map Prod.fst).Nodup

/-- In one order, a cache key has one store key, and different ones have different ones. -/
theorem firstUses_device {calls : List GroupCall} (member : key ∈ firstUses calls) :
    ∃ device, key = getKeyFromDevice device := by
  obtain ⟨call, _, found⟩ := List.mem_filterMap.mp (List.mem_eraseDups.mp member)
  cases call with
  | collective device _ => exact ⟨device, (Option.some.inj found).symm⟩
  | send device _ batchP2P | recv device _ batchP2P =>
    cases batchP2P with
    | false => cases found
    | true => exact ⟨device, (Option.some.inj found).symm⟩

theorem Names.same_order {joined joined' common : List String} {key key' : String}
    {storeKey storeKey' : String} (names : Names r joined key (some storeKey))
    (names' : Names s joined' key' (some storeKey')) (first : joined <+: common)
    (second : joined' <+: common)
    (devices : ∀ key ∈ common, ∃ device, key = getKeyFromDevice device) :
    storeKey = storeKey' ↔ key = key' := by
  have position : ∀ {part : List String} {key : String}, part <+: common → key ∈ part →
      part.idxOf key = common.idxOf key := by
    rintro part key ⟨more, rfl⟩ member
    exact (List.idxOf_append_of_mem member).symm
  rcases names.published with ⟨member, name⟩ | ⟨peer, pair, _, name⟩ <;>
    rcases names'.published with ⟨member', name'⟩ | ⟨peer', pair', _, name'⟩
  · rw [name, name', position first member, position second member']
    constructor
    · intro same
      exact (List.idxOf_inj (first.subset member)).mp (counterKey_injective same)
    · rintro rfl
      rfl
  · obtain ⟨device, named⟩ := devices key (first.subset member)
    constructor
    · intro same
      exact (counterKey_ne_sendRecv (name.symm.trans (same.trans (name'.trans pair')))).elim
    · intro same
      exact (getKeyFromDevice_ne_sendRecv (named.symm.trans (same.trans pair'))).elim
  · obtain ⟨device, named⟩ := devices key' (second.subset member')
    constructor
    · intro same
      exact (counterKey_ne_sendRecv (name'.symm.trans (same.symm.trans (name.trans pair)))).elim
    · intro same
      exact (getKeyFromDevice_ne_sendRecv (named.symm.trans (same.symm.trans pair))).elim
  · rw [name, name']

theorem SameOrder.common {programs : Nat → List GroupCall} (order : SameOrder size programs)
    (first : r < size) (second : s < size) : ∃ calls, firstUses (programs r) <+: firstUses calls ∧
      firstUses (programs s) <+: firstUses calls := by
  rcases order r first s second with shorter | longer
  · exact ⟨programs s, shorter, List.prefix_rfl⟩
  · exact ⟨programs r, List.prefix_rfl, longer⟩

/-- Two entries for one store key are one. -/
theorem Network.Ok.id_unique (ok : net.Ok) {storeKey : String} {id id' : UniqueId}
    (first : (storeKey, id) ∈ net.store) (second : (storeKey, id') ∈ net.store) : id = id' := by
  have same := List.inj_on_of_nodup_map ok.nodup first second rfl
  exact congrArg Prod.snd same

theorem Names.self (names : Names r rank.joined key none) : key = getKeySendRecv r r := by
  rcases names with ⟨_, name⟩ | ⟨peer, pair, name⟩
  · cases name
  · split at name
    case isTrue same => exact same ▸ pair
    case isFalse => cases name

/-- A communicator of a rank with itself is nobody else's. -/
theorem Names.owner {storeKey : Option String} (names : Names s rank.joined key storeKey)
    (self : key = getKeySendRecv r r) : s = r := by
  rcases names with ⟨member, _⟩ | ⟨peer, pair, _⟩
  · obtain ⟨device, named⟩ := firstUses_device member
    exact (getKeyFromDevice_ne_sendRecv (named.symm.trans self)).elim
  · rcases getKeySendRecv_inj (pair.symm.trans self) with ⟨same, _⟩ | ⟨same, _⟩ <;> exact same

theorem Network.Ok.idsAgree (ok : net.Ok) (order : SameOrder size fun r => (net.ranks r).program) :
    IdsAgree size net := by
  constructor
  · intro r s key comm comm' first second found found'
    obtain ⟨names, published⟩ := (ok.ranks r).cached key comm found
    obtain ⟨names', published'⟩ := (ok.ranks s).cached key comm' found'
    have alike : r = s → comm.ecclUniqueId = comm'.ecclUniqueId := by
      rintro rfl
      cases found.symm.trans found'
      rfl
    cases name : comm.storeKey with
    | none => exact alike (names'.owner (name ▸ names).self).symm
    | some storeKey =>
      cases name' : comm'.storeKey with
      | none => exact alike (names.owner (name' ▸ names').self)
      | some storeKey' =>
        obtain ⟨calls, earlier, earlier'⟩ := order.common first second
        rw [name] at names
        rw [name'] at names'
        have same := (names.same_order names' ((joined_take _).trans earlier)
          ((joined_take _).trans earlier') fun _ => firstUses_device).mpr rfl
        exact ok.id_unique (published storeKey name) (same ▸ published' storeKey' name')
  · intro r s key key' comm comm' storeKey storeKey' first second found found' apart name name' same
    have names := ((ok.ranks r).cached key comm found).1
    have names' := ((ok.ranks s).cached key' comm' found').1
    obtain ⟨calls, earlier, earlier'⟩ := order.common first second
    rw [name] at names
    rw [name'] at names'
    exact apart ((names.same_order names' ((joined_take _).trans earlier)
      ((joined_take _).trans earlier') fun _ => firstUses_device).mp same)
  · exact fun found => ((ok.ranks _).cached _ _ found).2 _
  · intro r key comm found name
    have names := ((ok.ranks r).cached key comm found).1
    rw [name] at names
    exact names.self
  · exact ok.nodup

/-- The ranks of every group whose programs use devices in one order agree on ids. -/
theorem ids_agree (ops : P2POps isP2POp) {programs : Nat → List GroupCall}
    (order : SameOrder size programs)
    (run : Reaches (fun net r net' => NetworkStep isP2POp size net r net')
      (Network.start programs) net) : IdsAgree size net := by
  have kept := run.invariant
    (P := fun net => net.Ok ∧ ∀ r, (net.ranks r).program = programs r)
    (fun holds taken => ⟨taken.ok ops holds.1, fun r => (taken.program r).trans (holds.2 r)⟩)
    ⟨.start programs, fun _ => rfl⟩
  have same : (fun r => (net.ranks r).program) = programs := funext kept.2
  exact kept.1.idsAgree (same ▸ order)

def isP2POpSample (opType : OpType) (batchP2P : Bool) : Bool := !batchP2P && opType ≠ .collective

theorem isP2POpSample_ops : P2POps isP2POpSample := by
  constructor <;> simp [isP2POpSample]

/-- A collective, and a message from rank 0 to rank 1. -/
def messagePrograms : Nat → List GroupCall
  | 0 => [.collective 0 false, .send 0 1 false]
  | 1 => [.collective 0 false, .recv 0 0 false]
  | _ => []

theorem messagePrograms_order : SameOrder 2 messagePrograms := by
  unfold SameOrder
  decide +kernel

/-- The steps of `ids_agree`. -/
abbrev SampleStep : Network → Nat → Network → Prop := fun net r net' =>
  NetworkStep isP2POpSample 2 net r net'

theorem ids_agree_message : ∃ net, IdsAgree 2 net ∧ net.store = [("0:1", 8), ("0", 7)] := by
  have member : 0 < 2 := by decide
  have member' : 1 < 2 := by decide
  have start : Reaches SampleStep (.start messagePrograms) (.start messagePrograms) := .refl
  have called := start.next (.call 7 member rfl rfl)
  have set := called.next (.set member rfl)
  have cached := set.next (.cache member rfl)
  have called' := cached.next (.call 0 member' rfl rfl)
  have gotten := called'.next (.get member' rfl rfl)
  have cached' := gotten.next (.cache member' rfl)
  have sending := cached'.next (.call 8 member rfl rfl)
  have set' := sending.next (.set member rfl)
  exact ⟨_, ids_agree isP2POpSample_ops messagePrograms_order set', by decide +kernel⟩

/-- The devices of the collectives alone, coalesced point-to-point calls left out. -/
def collectives (calls : List GroupCall) : List Nat :=
  calls.filterMap fun
    | .collective device _ => some device
    | _ => none

/-- The messages that a rank sends to another, or receives from it, outside of groups. -/
def sends (peer : Nat) (calls : List GroupCall) : Nat :=
  calls.countP fun
    | .send _ dstRank batchP2P => !batchP2P && dstRank = peer
    | _ => false

def recvs (peer : Nat) (calls : List GroupCall) : Nat :=
  calls.countP fun
    | .recv _ srcRank batchP2P => !batchP2P && srcRank = peer
    | _ => false

/-- A collective on device 0, and a coalesced message on device 1, which rank 0 sends before
the collective and rank 1 receives after it. -/
def coalescedPrograms : Nat → List GroupCall
  | 0 => [.send 1 1 true, .collective 0 false]
  | 1 => [.collective 0 false, .recv 1 0 true]
  | _ => []

/-- Where only the collectives are in one order, two ranks can get different ids for one
cache key. -/
theorem coalesced_message_parts_ids : ¬ ∀ programs net,
    (∀ r < 2, ∀ s < 2, collectives (programs r) = collectives (programs s)) →
      (∀ r < 2, ∀ s < 2, sends s (programs r) = recvs r (programs s)) →
        Reaches SampleStep (.start programs) net → IdsAgree 2 net := by
  intro agree
  have member : 0 < 2 := by decide
  have member' : 1 < 2 := by decide
  have start : Reaches SampleStep (.start coalescedPrograms) (.start coalescedPrograms) := .refl
  have sending := start.next (.call 7 member rfl rfl)
  have set := sending.next (.set member rfl)
  have cached := set.next (.cache member rfl)
  have called := cached.next (.call 8 member rfl rfl)
  have set' := called.next (.set member rfl)
  have cached' := set'.next (.cache member rfl)
  have called' := cached'.next (.call 0 member' rfl rfl)
  have gotten := called'.next (.get member' rfl rfl)
  have done := gotten.next (.cache member' rfl)
  obtain ⟨net, run, first, second⟩ : ∃ net, Reaches SampleStep (.start coalescedPrograms) net ∧
      (net.ranks 0).devECCLCommMap "0" = some ⟨8, some "1"⟩ ∧
      (net.ranks 1).devECCLCommMap "0" = some ⟨7, some "0"⟩ :=
    ⟨_, done, by decide +kernel, by decide +kernel⟩
  have ids := agree coalescedPrograms net (by decide +kernel) (by decide +kernel) run
  cases ids.agree member member' first second

end TorchGcu.ProcessGroup

import TorchGcu.CachingAllocator.State
import Mathlib.Data.List.Nodup
import Mathlib.Tactic.Ring

/-! The tables of private pools: `graph_pools`, `graph_pools_freeable`, the pools that
exist and the number of segments each of them has. -/
namespace TorchGcu.GCUCachingAllocator

/-- The `topsMalloc_count` of a private pool is the number of its segments, and the pool of
a segment exists. -/
structure Counted (privatePools : PrivatePoolId → Option PrivatePool) (pools : List PoolRef) :
    Prop where
  present : ∀ pool ∈ pools, ∀ owner, pool.ownerPrivatePool = some owner →
    (privatePools owner).isSome = true
  count : ∀ owner p, privatePools owner = some p →
    p.topsMallocCount = pools.countP fun pool => decide (pool.ownerPrivatePool = some owner)

/-- The private pools are those in `graph_pools`, each once. -/
structure Tables (graphPools graphPoolsFreeable : List (MempoolId × PrivatePoolId))
    (privatePools : PrivatePoolId → Option PrivatePool) (nextPrivatePool : PrivatePoolId) :
    Prop where
  ids : (graphPools.map (·.1)).Nodup
  pools : (graphPools.map (·.2)).Nodup
  present : ∀ entry ∈ graphPools, (privatePools entry.2).isSome = true
  listed : ∀ pool, (privatePools pool).isSome = true → pool ∈ graphPools.map (·.2)
  bound : ∀ entry ∈ graphPools, entry.2 < nextPrivatePool
  freeable : graphPoolsFreeable ⊆ graphPools
  freeableIds : (graphPoolsFreeable.map (·.1)).Nodup

variable {privatePools : PrivatePoolId → Option PrivatePool} {pools pools' : List PoolRef}
  {graphPools freeable : List (MempoolId × PrivatePoolId)} {nextPool owner : PrivatePoolId}
  {f : PrivatePool → PrivatePool}

theorem Counted.perm (counted : Counted privatePools pools) (order : pools'.Perm pools) :
    Counted privatePools pools' where
  present pool member := counted.present pool (order.mem_iff.mp member)
  count owner p found := by rw [order.countP_eq]; exact counted.count owner p found

theorem modified_isSome (p : PrivatePoolId) :
    (Function.update privatePools owner ((privatePools owner).map f) p).isSome =
      (privatePools p).isSome := by
  by_cases same : p = owner
  · subst same
    simp
  · simp [same]

theorem Counted.modify (counted : Counted privatePools pools)
    (same : ∀ p, (f p).topsMallocCount = p.topsMallocCount) :
    Counted (Function.update privatePools owner ((privatePools owner).map f)) pools where
  present pool member p owned := by
    rw [modified_isSome]
    exact counted.present pool member p owned
  count p pp found := by
    by_cases here : p = owner
    · subst here
      simp only [Function.update_self, Option.map_eq_some_iff] at found
      obtain ⟨old, found, rfl⟩ := found
      rw [same, counted.count p old found]
    · rw [Function.update_of_ne here] at found
      exact counted.count p pp found

theorem Tables.modify (tables : Tables graphPools freeable privatePools nextPool) :
    Tables graphPools freeable
      (Function.update privatePools owner ((privatePools owner).map f)) nextPool where
  ids := tables.ids
  pools := tables.pools
  present entry member := by
    rw [modified_isSome]
    exact tables.present entry member
  listed p found := by
    rw [modified_isSome] at found
    exact tables.listed p found
  bound := tables.bound
  freeable := tables.freeable
  freeableIds := tables.freeableIds

theorem findPool_mem {id : MempoolId} {pool : PrivatePoolId}
    (found : State.findPool graphPools id = some pool) : (id, pool) ∈ graphPools := by
  simp only [State.findPool, Option.map_eq_some_iff] at found
  obtain ⟨entry, found, rfl⟩ := found
  have key : entry.1 = id := by simpa using List.find?_some found
  exact key ▸ List.mem_of_find?_eq_some found

theorem findPool_none {id : MempoolId} (absent : State.findPool graphPools id = none) :
    id ∉ graphPools.map (·.1) := by
  simp only [State.findPool, Option.map_eq_none_iff, List.find?_eq_none, decide_eq_true_eq] at absent
  intro member
  obtain ⟨entry, member, key⟩ := List.mem_map.mp member
  exact absent entry member key

/-- The id of a private pool determines it. -/
theorem Tables.unique (tables : Tables graphPools freeable privatePools nextPool)
    {entry entry' : MempoolId × PrivatePoolId} (first : entry ∈ graphPools)
    (second : entry' ∈ graphPools) (same : entry.1 = entry'.1) : entry = entry' :=
  List.inj_on_of_nodup_map tables.ids first second same

theorem Tables.unique_pool (tables : Tables graphPools freeable privatePools nextPool)
    {entry entry' : MempoolId × PrivatePoolId} (first : entry ∈ graphPools)
    (second : entry' ∈ graphPools) (same : entry.2 = entry'.2) : entry = entry' :=
  List.inj_on_of_nodup_map tables.pools first second same

theorem Tables.open (tables : Tables graphPools freeable privatePools nextPool) {id : MempoolId}
    (absent : State.findPool graphPools id = none) (pool : PrivatePool) :
    Tables (graphPools ++ [(id, nextPool)]) freeable
      (Function.update privatePools nextPool (some pool)) (nextPool + 1) where
  ids := by
    simp only [List.map_append, List.map_cons, List.map_nil]
    refine List.nodup_append'.mpr ⟨tables.ids, by simp, ?_⟩
    simpa using findPool_none absent
  pools := by
    simp only [List.map_append, List.map_cons, List.map_nil]
    refine List.nodup_append'.mpr ⟨tables.pools, by simp, ?_⟩
    simp only [List.disjoint_singleton, List.mem_map, not_exists, not_and]
    exact fun entry member same => absurd same (tables.bound entry member).ne
  present entry member := by
    rcases List.mem_append.mp member with old | new
    · rw [Function.update_of_ne (tables.bound entry old).ne]
      exact tables.present entry old
    · obtain rfl := List.mem_singleton.mp new
      simp
  listed p found := by
    by_cases same : p = nextPool
    · simp [same]
    · rw [Function.update_of_ne same] at found
      rw [List.map_append]
      exact List.mem_append_left _ (tables.listed p found)
  bound entry member := by
    rcases List.mem_append.mp member with old | new
    · exact (tables.bound entry old).trans (Nat.lt_succ_self _)
    · obtain rfl := List.mem_singleton.mp new
      exact Nat.lt_succ_self _
  freeable entry member := List.mem_append_left _ (tables.freeable member)
  freeableIds := tables.freeableIds

theorem Tables.fresh (tables : Tables graphPools freeable privatePools nextPool) :
    privatePools nextPool = none := by
  by_contra found
  obtain ⟨entry, member, same⟩ :=
    List.mem_map.mp (tables.listed nextPool (Option.isSome_iff_ne_none.mpr found))
  exact (tables.bound entry member).ne same

theorem Counted.open (counted : Counted privatePools pools)
    (fresh : privatePools nextPool = none) :
    Counted (Function.update privatePools nextPool (some {})) pools where
  present pool member p owned := by
    have old := counted.present pool member p owned
    rw [Function.update_of_ne]
    · exact old
    · rintro rfl
      simp [fresh] at old
  count p pp found := by
    by_cases same : p = nextPool
    · subst same
      simp only [Function.update_self, Option.some.injEq] at found
      subst found
      have none_ : pools.countP (fun pool => decide (pool.ownerPrivatePool = some p)) = 0 := by
        rw [List.countP_eq_zero]
        intro pool member owned
        have old := counted.present pool member p (by simpa using owned)
        simp [fresh] at old
      simp [none_]
    · rw [Function.update_of_ne same] at found
      exact counted.count p pp found

/-- Erasing a private pool from the tables. -/
theorem Tables.erase (tables : Tables graphPools freeable privatePools nextPool) {id : MempoolId}
    {pool : PrivatePoolId} (present : State.findPool graphPools id = some pool) :
    Tables (graphPools.filter (·.1 ≠ id)) (freeable.filter (·.1 ≠ id))
      (Function.update privatePools pool none) nextPool where
  ids := tables.ids.sublist (List.filter_sublist.map _)
  pools := tables.pools.sublist (List.filter_sublist.map _)
  present entry member := by
    obtain ⟨old, other⟩ := List.mem_filter.mp member
    rw [Function.update_of_ne]
    · exact tables.present entry old
    · intro same
      have entryEq := tables.unique_pool old (findPool_mem present) same
      simp [entryEq] at other
  listed p found := by
    have other : p ≠ pool := by
      rintro rfl
      simp at found
    rw [Function.update_of_ne other] at found
    obtain ⟨entry, member, rfl⟩ := List.mem_map.mp (tables.listed p found)
    refine List.mem_map_of_mem (List.mem_filter.mpr ⟨member, ?_⟩)
    simp only [ne_eq, decide_eq_true_eq]
    intro same
    exact other (congrArg Prod.snd (tables.unique member (findPool_mem present) same))
  bound entry member := tables.bound entry (List.mem_filter.mp member).1
  freeable entry member := by
    obtain ⟨old, other⟩ := List.mem_filter.mp member
    exact List.mem_filter.mpr ⟨tables.freeable old, other⟩
  freeableIds := tables.freeableIds.sublist (List.filter_sublist.map _)

/-- A private pool without segments can be erased. -/
theorem Counted.erase (counted : Counted privatePools pools) {pool : PrivatePoolId}
    (vacant : ((privatePools pool).getD {}).topsMallocCount = 0) :
    Counted (Function.update privatePools pool none) pools where
  present ref member p owned := by
    have old := counted.present ref member p owned
    rw [Function.update_of_ne]
    · exact old
    · rintro rfl
      obtain ⟨pp, found⟩ := Option.isSome_iff_exists.mp old
      have count := counted.count p pp found
      have positive : 0 < pools.countP (fun pool => decide (pool.ownerPrivatePool = some p)) :=
        List.countP_pos_iff.mpr ⟨ref, member, by simpa using owned⟩
      simp only [found, Option.getD_some] at vacant
      omega
  count p pp found := by
    by_cases same : p = pool
    · subst same
      simp at found
    · rw [Function.update_of_ne same] at found
      exact counted.count p pp found

theorem Tables.mark (tables : Tables graphPools freeable privatePools nextPool) {id : MempoolId}
    {pool : PrivatePoolId} (present : State.findPool graphPools id = some pool)
    (absent : State.findPool freeable id = none) :
    Tables graphPools (freeable ++ [(id, pool)]) privatePools nextPool where
  ids := tables.ids
  pools := tables.pools
  present := tables.present
  listed := tables.listed
  bound := tables.bound
  freeable entry member := by
    rcases List.mem_append.mp member with old | new
    · exact tables.freeable old
    · obtain rfl := List.mem_singleton.mp new
      exact findPool_mem present
  freeableIds := by
    simp only [List.map_append, List.map_cons, List.map_nil]
    refine List.nodup_append'.mpr ⟨tables.freeableIds, by simp, ?_⟩
    simpa using findPool_none absent

theorem Counted.grow (counted : Counted privatePools pools) {pool : PoolRef}
    (present : ∀ owner, pool.ownerPrivatePool = some owner →
      (privatePools owner).isSome = true) :
    Counted (match pool.ownerPrivatePool with
      | none => privatePools
      | some owner => Function.update privatePools owner ((privatePools owner).map fun p =>
          { p with topsMallocCount := p.topsMallocCount + 1 })) (pool :: pools) := by
  cases owned : pool.ownerPrivatePool with
  | none =>
    refine ⟨fun ref member p refOwned => ?_, fun p pp found => ?_⟩
    · rcases List.mem_cons.mp member with rfl | member
      · simp [owned] at refOwned
      · exact counted.present ref member p refOwned
    · rw [List.countP_cons_of_neg (by simp [owned])]
      exact counted.count p pp found
  | some owner =>
    refine ⟨fun ref member p refOwned => ?_, fun p pp found => ?_⟩
    · rw [modified_isSome]
      rcases List.mem_cons.mp member with rfl | member
      · exact present p refOwned
      · exact counted.present ref member p refOwned
    · by_cases same : p = owner
      · subst same
        simp only [Function.update_self, Option.map_eq_some_iff] at found
        obtain ⟨old, found, rfl⟩ := found
        rw [List.countP_cons_of_pos (by simp [owned])]
        have count := counted.count p old found
        simp only [count]
        push_cast
        ring
      · simp only [Function.update_of_ne same] at found
        rw [List.countP_cons_of_neg (by simpa [owned] using Ne.symm same)]
        exact counted.count p pp found

theorem Counted.shrink {pool : PoolRef} (counted : Counted privatePools (pool :: pools)) :
    Counted (match pool.ownerPrivatePool with
      | none => privatePools
      | some owner => Function.update privatePools owner ((privatePools owner).map fun p =>
          { p with topsMallocCount := p.topsMallocCount - 1 })) pools := by
  cases owned : pool.ownerPrivatePool with
  | none =>
    refine ⟨fun ref member p refOwned => ?_, fun p pp found => ?_⟩
    · exact counted.present ref (List.mem_cons_of_mem _ member) p refOwned
    · have count := counted.count p pp found
      rwa [List.countP_cons_of_neg (by simp [owned])] at count
  | some owner =>
    refine ⟨fun ref member p refOwned => ?_, fun p pp found => ?_⟩
    · rw [modified_isSome]
      exact counted.present ref (List.mem_cons_of_mem _ member) p refOwned
    · by_cases same : p = owner
      · subst same
        simp only [Function.update_self, Option.map_eq_some_iff] at found
        obtain ⟨old, found, rfl⟩ := found
        have count := counted.count p old found
        rw [List.countP_cons_of_pos (by simp [owned])] at count
        simp only [count]
        push_cast
        ring
      · simp only [Function.update_of_ne same] at found
        have count := counted.count p pp found
        rwa [List.countP_cons_of_neg (by simpa [owned] using Ne.symm same)] at count

end TorchGcu.GCUCachingAllocator

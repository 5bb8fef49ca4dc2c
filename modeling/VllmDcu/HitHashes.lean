import VllmDcu.CommonPrefix

/-! The hits that `get_computed_blocks` hands out for full-attention groups: each block
is cached under the request's own hash of its index, in the group it is handed to. -/
namespace VllmDcu.HitHashes
open Requests FreeBlockQueue BlockPool KVCacheInterface CacheHit SingleTypeManager CacheManager
open CacheHitRules AttentionGroups PoolCache CommonPrefix SlotAllocation List Option Function

variable {Digest : Type}

/-- The blocks carry the hashes of their indices in a group. -/
def HashedAt (pool : Pool Digest) (blockHashes : List (List Digest)) (groupId : Nat)
    (blocks : List BlockId) : Prop :=
  ∀ (index : Nat) (block : BlockId), blocks[index]? = some block →
    ∃ hash, blockHashes[index]? = some hash ∧ (pool.blocks block).blockHash = some (hash, groupId)

variable (pool : Pool Digest)

theorem hashedAt_nil {blockHashes : List (List Digest)} {groupId : Nat} :
    HashedAt pool blockHashes groupId [] := by
  intro index block entry
  cases entry

theorem hashedAt_take (blockHashes : List (List Digest)) (groupId : Nat) (blocks : List BlockId)
    (count : Nat) (here : HashedAt pool blockHashes groupId blocks) :
    HashedAt pool blockHashes groupId (blocks.take count) := by
  intro index block entry
  rw [getElem?_take] at entry
  split at entry
  · exact here index block entry
  · contradiction

/-- The lists of one full-attention search. -/
theorem fullAttentionHit_hashedAt (hashed : Hashed pool) {blockHashes : List (List Digest)}
    {maxLength : Nat} {groupIds : List Nat} {blockSize : Nat} {useEagle : Bool}
    {alignmentTokens position groupId : Nat} {blocks : List BlockId}
    (given : groupIds[position]? = some groupId)
    (listed : (fullAttentionHit blockHashes maxLength groupIds pool blockSize useEagle
      alignmentTokens)[position]? = some blocks) :
    HashedAt pool blockHashes groupId blocks := by
  obtain ⟨count, columnsOf⟩ : ∃ count, fullAttentionHit blockHashes maxLength groupIds pool
      blockSize useEagle alignmentTokens = columns groupIds.length
        ((prefixRows pool groupIds (blockHashes.take (maxLength / blockSize))).take count) := by
    unfold fullAttentionHit
    cases useEagle with
    | false => exact ⟨_, rfl⟩
    | true =>
      simp only [↓reduceIte, dropLast_eq_take, take_take]
      exact ⟨_, rfl⟩
  rw [columnsOf] at listed
  have rows := rows_take pool blockHashes groupIds count _
    (prefixRows_rows pool groupIds (blockHashes.take (maxLength / blockSize)))
  obtain ⟨-, lengths, cached⟩ := columns_spec pool blockHashes rows
  intro index block entry
  have inside := (List.getElem?_eq_some_iff.mp entry).1
  rw [lengths blocks (mem_of_getElem? listed)] at inside
  obtain ⟨hash, atIndex, entries⟩ := cached index inside
  obtain ⟨blocks', block', listed', entry', one⟩ := entries position groupId given
  obtain rfl := some.inj (listed.symm.trans listed')
  obtain rfl := some.inj (entry.symm.trans entry')
  exact ⟨hash, atIndex, (hashed.mem block (hash, groupId)).mpr
    (PrefixReset.getOneBlock_members _ _ _ one)⟩

/-! The hybrid search. -/

theorem assign_cases (byGroup : HitBlocks) (groupIds : List Nat) (lists : List (List BlockId))
    (groupId : Nat) (blocks : List BlockId)
    (given : HybridSearch.assign byGroup groupIds lists groupId = some blocks) :
    byGroup groupId = some blocks ∨
      ∃ position : Nat, groupIds[position]? = some groupId ∧ lists[position]? = some blocks := by
  induction groupIds generalizing byGroup lists with
  | nil => exact Or.inl given
  | cons first rest ih =>
    cases lists with
    | nil => exact Or.inl given
    | cons here lists =>
      rcases ih (update byGroup first (some here)) lists given with old | later
      · by_cases same : groupId = first
        · subst same
          rw [update_self] at old
          exact Or.inr ⟨0, rfl, old⟩
        · rw [update_of_ne same] at old
          exact Or.inl old
      · obtain ⟨position, inIds, inLists⟩ := later
        exact Or.inr ⟨position + 1, inIds, inLists⟩

/-- Every list that a search has so far carries the hashes of its group. -/
def AllHashed (search : HybridSearch Digest) (byGroup : HitBlocks) : Prop :=
  ∀ (groupId : Nat) (spec : KVCacheSpec), search.specs[groupId]? = some spec →
    ∀ blocks, byGroup groupId = some blocks →
      HashedAt search.pool
        (hashesWithBlockSize search.blockHashes search.hashBlockSize spec.blockSize) groupId blocks

variable (search : HybridSearch Digest)

theorem allHashed_none : AllHashed search fun _ => none := by
  intro groupId spec _ blocks given
  contradiction

theorem find_hashedAt (hashed : Hashed search.pool) (group : AttentionGroup)
    (full : Full group.spec) (maxLength : Nat) (lists : List (List BlockId))
    (found : search.find group maxLength = some lists) (position groupId : Nat)
    (blocks : List BlockId) (given : group.groupIds[position]? = some groupId)
    (listed : lists[position]? = some blocks) :
    HashedAt search.pool
      (hashesWithBlockSize search.blockHashes search.hashBlockSize group.spec.blockSize) groupId
      blocks := by
  have same : lists = fullAttentionHit
      (hashesWithBlockSize search.blockHashes search.hashBlockSize group.spec.blockSize) maxLength
      group.groupIds search.pool (group.spec.blockSize * (1 * 1)) search.useEagle
      (lcmBlockSize search.specs) := by
    unfold HybridSearch.find CacheHit.findLongestCacheHit at found
    cases kind : group.spec with
    | fullAttention | mlaAttention => simpa only [kind, some.injEq, eq_comm] using found
    | slidingWindow | chunkedLocalAttention | mamba | sinkFullAttention | crossAttention =>
      rw [kind] at full
      exact full.elim
  rw [same] at listed
  exact fullAttentionHit_hashedAt search.pool hashed given listed

theorem pass_allHashed (hashed : Hashed search.pool) (full : ∀ spec ∈ search.specs, Full spec)
    (groups : List AttentionGroup) (members : ∀ group ∈ groups, group ∈ search.groups)
    (length : Nat) (byGroup : HitBlocks) (sofar : AllHashed search byGroup) (length' : Nat)
    (byGroup' : HitBlocks) (passed : search.pass groups length byGroup = some (length', byGroup')) :
    AllHashed search byGroup' := by
  induction groups generalizing length byGroup with
  | nil =>
    obtain ⟨-, rfl⟩ := Prod.mk.inj (some.inj passed)
    exact sofar
  | cons group rest ih =>
    have others := fun other member => members other (mem_cons_of_mem group member)
    have grouping := attentionGroups_grouping search.specs
    have ids := grouping.mem_ids group (members group mem_cons_self)
    simp only [HybridSearch.pass] at passed
    split at passed
    · contradiction
    · split at passed
      · exact ih others _ byGroup sofar passed
      · split at passed
        · contradiction
        · rename_i lists found
          split at passed
          · contradiction
          · apply ih others _ _ _ passed
            intro groupId spec atGroup blocks given
            rcases assign_cases byGroup group.groupIds lists groupId blocks given with old | now
            · exact sofar groupId spec atGroup blocks old
            · obtain ⟨position, inIds, inLists⟩ := now
              have same := (ids groupId).mp (mem_of_getElem? inIds)
              obtain rfl := some.inj (atGroup.symm.trans same)
              exact find_hashedAt search hashed group
                (full _ (mem_of_getElem? atGroup)) _ lists found position groupId blocks
                inIds inLists

theorem hitLoop_allHashed (hashed : Hashed search.pool) (full : ∀ spec ∈ search.specs, Full spec)
    (fuel hitLength : Nat) (byGroup : HitBlocks) (sofar : AllHashed search byGroup) (length' : Nat)
    (byGroup' : HitBlocks)
    (searched : search.hitLoop fuel hitLength byGroup = some (length', byGroup')) :
    AllHashed search byGroup' := by
  induction fuel generalizing hitLength byGroup with
  | zero => cases searched
  | succ fuel ih =>
    simp only [HybridSearch.hitLoop] at searched
    split at searched
    · contradiction
    · rename_i currHitLength next passed
      have now := pass_allHashed search hashed full search.groups (fun _ member => member)
        hitLength byGroup sofar currHitLength next passed
      split at searched
      · obtain ⟨-, rfl⟩ := Prod.mk.inj (some.inj searched)
        exact now
      · split at searched
        · obtain ⟨-, rfl⟩ := Prod.mk.inj (some.inj searched)
          exact now
        · exact ih currHitLength next now searched

theorem truncate_allHashed (hitLength : Nat) (byGroup : HitBlocks)
    (sofar : AllHashed search byGroup) : AllHashed search (search.truncate hitLength byGroup) := by
  unfold HybridSearch.truncate
  split
  · exact sofar
  · split
    · intro groupId spec atGroup blocks given
      simp only at given
      split at given
      · obtain ⟨whole, before, rfl⟩ := map_eq_some_iff.mp given
        exact hashedAt_take _ _ _ whole _ (sofar groupId spec atGroup whole before)
      · exact sofar groupId spec atGroup blocks given
    · exact sofar

/-! The whole search. -/

/-- A coordinator of full-attention groups, as its constructor leaves it. -/
structure FullGroups (coordinator : Coordinator Digest) : Prop where
  full : ∀ manager ∈ coordinator.singleTypeManagers,
    Full manager.kvCacheSpec ∧ 0 < manager.blockSize
  ids : ∀ (index : Nat) (manager : Manager Digest),
    coordinator.singleTypeManagers[index]? = some manager → manager.kvCacheGroupId = index
  sizes : ∀ manager ∈ coordinator.singleTypeManagers, manager.blockSize =
    manager.kvCacheSpec.blockSize * (coordinator.dcpWorldSize * coordinator.pcpWorldSize)
  unitary : coordinator.kind = .unitary → coordinator.singleTypeManagers.length = 1
  hybrid : coordinator.kind = .hybrid →
    coordinator.dcpWorldSize = 1 ∧ coordinator.pcpWorldSize = 1

/-- The hits of a group are its list, or empty. -/
theorem hitsOf_create (blocks : KVCacheBlocks) (manager : Manager Digest) :
    hitsOf (KVCacheManager.createKvCacheBlocks blocks) manager = [] ∨
      blocks[manager.kvCacheGroupId]? =
        some (hitsOf (KVCacheManager.createKvCacheBlocks blocks) manager) := by
  unfold KVCacheManager.createKvCacheBlocks hitsOf
  split
  · cases entry : blocks[manager.kvCacheGroupId]? with
    | none => exact Or.inl (by simp only [blocksAt, entry]; rfl)
    | some hits => exact Or.inr (by simp only [blocksAt, entry]; rfl)
  · exact Or.inl rfl

theorem findLongestCacheHit_hashedAt {coordinator : Coordinator Digest}
    (groups : FullGroups coordinator) (hashed : Hashed coordinator.blockPool)
    {blockHashes : List Digest} (maxLength : Nat) {lists : KVCacheBlocks} {length : Nat}
    (found : coordinator.findLongestCacheHit blockHashes maxLength = some (lists, length))
    {manager : Manager Digest} (member : manager ∈ coordinator.singleTypeManagers)
    (blocks : List BlockId) (listed : lists[manager.kvCacheGroupId]? = some blocks) :
    HashedAt coordinator.blockPool
      (hashesWithBlockSize blockHashes coordinator.blockPool.hashBlockSize manager.blockSize)
      manager.kvCacheGroupId blocks := by
  obtain ⟨index, atIndex⟩ := getElem?_of_mem member
  have here := groups.ids index manager atIndex
  have specAt : coordinator.specs[index]? = some manager.kvCacheSpec := by
    rw [Coordinator.specs, getElem?_map, atIndex]
    rfl
  rw [here] at listed ⊢
  unfold Coordinator.findLongestCacheHit at found
  cases kind : coordinator.kind with
  | noPrefixCache =>
    simp only [kind, some.injEq, Prod.mk.injEq] at found
    rw [← found.1, getElem?_map, atIndex] at listed
    obtain rfl := some.inj listed
    exact hashedAt_nil _
  | unitary =>
    -- The only group has id 0, and its lists come from one search.
    have one := groups.unitary kind
    have inside := (List.getElem?_eq_some_iff.mp atIndex).1
    obtain rfl : index = 0 := by omega
    simp only [kind] at found
    split at found
    · contradiction
    · rename_i spec rest specs
      rw [specs] at specAt
      obtain rfl := some.inj specAt
      have full := (groups.full manager member).1
      have size := groups.sizes manager member
      split at found
      · contradiction
      · rename_i hitBlocks searched
        obtain ⟨first, -, same⟩ := map_eq_some_iff.mp found
        obtain ⟨rfl, -⟩ := Prod.mk.inj same
        cases kindOf : manager.kvCacheSpec with
        | fullAttention | mlaAttention =>
          rw [kindOf] at searched size
          obtain rfl := some.inj searched
          rw [size, ← Nat.mul_assoc]
          exact fullAttentionHit_hashedAt coordinator.blockPool hashed
            rfl listed
        | slidingWindow | chunkedLocalAttention | mamba | sinkFullAttention | crossAttention =>
          rw [kindOf] at full
          exact full.elim
  | hybrid =>
    obtain ⟨dcp, pcp⟩ := groups.hybrid kind
    have size : manager.blockSize = manager.kvCacheSpec.blockSize := by
      rw [groups.sizes manager member, dcp, pcp, Nat.mul_one]
    simp only [kind] at found
    obtain ⟨⟨hitLength, byGroup⟩, looped, same⟩ := map_eq_some_iff.mp found
    obtain ⟨rfl, rfl⟩ := Prod.mk.inj same
    have full : ∀ spec ∈ coordinator.specs, Full spec := by
      intro spec inSpecs
      obtain ⟨other, inManagers, rfl⟩ := List.mem_map.mp inSpecs
      exact (groups.full other inManagers).1
    have all := truncate_allHashed _ hitLength byGroup (hitLoop_allHashed _ hashed full _ _ _
      (allHashed_none _) hitLength byGroup looped)
    rw [getElem?_map, map_eq_some_iff] at listed
    obtain ⟨groupId, inRange, given⟩ := listed
    rw [List.getElem?_eq_some_iff] at inRange
    obtain ⟨within, rfl⟩ := inRange
    rw [getElem_range] at given
    rw [size]
    cases known : HybridSearch.truncate ⟨coordinator.specs, coordinator.blockPool,
        coordinator.blockPool.hashBlockSize, coordinator.useEagle, blockHashes⟩ hitLength byGroup
        index with
    | none =>
      rw [known] at given
      obtain rfl := given
      exact hashedAt_nil _
    | some hits =>
      rw [known] at given
      obtain rfl := given
      exact all index manager.kvCacheSpec specAt hits known

/-- `get_computed_blocks` hands each group blocks under the request's own hashes. -/
theorem getComputedBlocks_hashedAt {manager : KVCacheManager Digest}
    (groups : FullGroups manager.coordinator) (hashed : Hashed manager.coordinator.blockPool)
    {request : Request Digest} {hits : Option KVCacheBlocks} {numNewComputedTokens : Nat}
    (found : manager.getComputedBlocks request = some (hits, numNewComputedTokens))
    {single : Manager Digest} (member : single ∈ manager.coordinator.singleTypeManagers) :
    HashedAt manager.coordinator.blockPool
      (hashesWithBlockSize request.blockHashes manager.coordinator.blockPool.hashBlockSize
        single.blockSize) single.kvCacheGroupId (hitsOf hits single) := by
  unfold KVCacheManager.getComputedBlocks at found
  split at found
  · obtain ⟨rfl, -⟩ := Prod.mk.inj (some.inj found)
    exact hashedAt_nil _
  · obtain ⟨⟨lists, length⟩, searched, same⟩ := map_eq_some_iff.mp found
    obtain ⟨rfl, -⟩ := Prod.mk.inj same
    rcases hitsOf_create lists single with empty | listed
    · rw [empty]
      exact hashedAt_nil _
    · exact findLongestCacheHit_hashedAt groups hashed _ searched member _ listed

end VllmDcu.HitHashes

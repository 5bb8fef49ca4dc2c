import VllmDcu.BlockPool

/-! The prefix cache of the block pool: the blocks with a hash are exactly the
blocks of the map, whatever the operations do. Beside it, what each operation
leaves alone. -/
namespace VllmDcu.PoolCache
open Requests FreeBlockQueue BlockPool List Option Function

variable {Digest : Type}

/-- The blocks of one entry of the map. -/
def members : Option CachedBlocks → List BlockId
  | none => []
  | some (.single block) => [block]
  | some (.several blocks) => blocks

structure Hashed (pool : Pool Digest) : Prop where
  mem : ∀ block key, (pool.blocks block).blockHash = some key ↔
    block ∈ members (pool.cachedBlockHashToBlock key)
  several : ∀ key blocks, pool.cachedBlockHashToBlock key = some (.several blocks) →
    blocks ≠ [] ∧ blocks.Nodup
  real : ∀ block key, (pool.blocks block).blockHash = some key →
    block ≠ pool.nullBlock ∧ block < pool.numGpuBlocks

/-- What no operation of the pool changes. -/
structure SameShape (pool pool' : Pool Digest) : Prop where
  numGpuBlocks : pool'.numGpuBlocks = pool.numGpuBlocks
  nullBlock : pool'.nullBlock = pool.nullBlock
  enableCaching : pool'.enableCaching = pool.enableCaching
  hashBlockSize : pool'.hashBlockSize = pool.hashBlockSize

variable (pool : Pool Digest)

theorem SameShape.refl : SameShape pool pool := ⟨rfl, rfl, rfl, rfl⟩

theorem SameShape.trans {first second third : Pool Digest} (one : SameShape first second)
    (two : SameShape second third) : SameShape first third :=
  ⟨two.numGpuBlocks.trans one.numGpuBlocks, two.nullBlock.trans one.nullBlock,
    two.enableCaching.trans one.enableCaching, two.hashBlockSize.trans one.hashBlockSize⟩

theorem hashed_frame (pool' : Pool Digest) (hashed : Hashed pool)
    (hashes : ∀ block, (pool'.blocks block).blockHash = (pool.blocks block).blockHash)
    (cache : pool'.cachedBlockHashToBlock = pool.cachedBlockHashToBlock)
    (shape : SameShape pool pool') : Hashed pool' := by
  constructor
  · intro block key
    rw [hashes block, cache]
    exact hashed.mem block key
  · intro key blocks entry
    rw [cache] at entry
    exact hashed.several key blocks entry
  · intro block key hash
    rw [hashes block] at hash
    rw [shape.nullBlock, shape.numGpuBlocks]
    exact hashed.real block key hash

variable (block other : BlockId) (amount : Int)

@[simp] theorem addRef_refCnt :
    ((pool.addRef block amount).blocks other).refCnt =
      (pool.blocks other).refCnt + if other = block then amount else 0 := by
  by_cases same : other = block
  · simp [Pool.addRef, same]
  · simp [Pool.addRef, same]

@[simp] theorem addRef_blockHash :
    ((pool.addRef block amount).blocks other).blockHash = (pool.blocks other).blockHash := by
  by_cases same : other = block
  · simp [Pool.addRef, same]
  · simp [Pool.addRef, same]

theorem addRef_shape : SameShape pool (pool.addRef block amount) := ⟨rfl, rfl, rfl, rfl⟩

theorem addRef_hashed (hashed : Hashed pool) : Hashed (pool.addRef block amount) :=
  hashed_frame pool _ hashed (addRef_blockHash pool block · amount) rfl (addRef_shape _ _ _)

@[simp] theorem setHash_blockHash (hash : Option (HashKey Digest)) :
    ((pool.setHash block hash).blocks other).blockHash =
      if other = block then hash else (pool.blocks other).blockHash := by
  by_cases same : other = block
  · simp [Pool.setHash, same]
  · simp [Pool.setHash, same]

@[simp] theorem setHash_refCnt (hash : Option (HashKey Digest)) :
    ((pool.setHash block hash).blocks other).refCnt = (pool.blocks other).refCnt := by
  by_cases same : other = block
  · simp [Pool.setHash, same]
  · simp [Pool.setHash, same]

variable (event : KVCacheEvent Digest)

/-- An event changes nothing but the events. -/
theorem addEvent_frame :
    (pool.addEvent event).blocks = pool.blocks ∧
      (pool.addEvent event).freeBlockQueue = pool.freeBlockQueue ∧
      (pool.addEvent event).cachedBlockHashToBlock = pool.cachedBlockHashToBlock ∧
      SameShape pool (pool.addEvent event) := by
  unfold Pool.addEvent
  split
  · exact ⟨rfl, rfl, rfl, rfl, rfl, rfl, rfl⟩
  · exact ⟨rfl, rfl, rfl, SameShape.refl pool⟩

/-- Only the hashes and the map change, and the accounts do not read them. -/
structure SameCounts (pool pool' : Pool Digest) : Prop where
  shape : SameShape pool pool'
  queue : pool'.freeBlockQueue = pool.freeBlockQueue
  counts : ∀ block, (pool'.blocks block).refCnt = (pool.blocks block).refCnt

theorem SameCounts.refl : SameCounts pool pool := ⟨SameShape.refl pool, rfl, fun _ => rfl⟩

theorem SameCounts.trans {first second third : Pool Digest} (one : SameCounts first second)
    (two : SameCounts second third) : SameCounts first third :=
  ⟨one.shape.trans two.shape, two.queue.trans one.queue,
    fun block => (two.counts block).trans (one.counts block)⟩

theorem addEvent_sameCounts : SameCounts pool (pool.addEvent event) := by
  obtain ⟨blocks, queue, _, shape⟩ := addEvent_frame pool event
  exact ⟨shape, queue, fun block => by rw [blocks]⟩

/-- Only the queue and the counts change. -/
structure SameHashes (pool pool' : Pool Digest) : Prop where
  shape : SameShape pool pool'
  hashes : ∀ block, (pool'.blocks block).blockHash = (pool.blocks block).blockHash
  cache : pool'.cachedBlockHashToBlock = pool.cachedBlockHashToBlock

theorem SameHashes.refl : SameHashes pool pool := ⟨SameShape.refl pool, fun _ => rfl, rfl⟩

theorem SameHashes.trans {first second third : Pool Digest} (one : SameHashes first second)
    (two : SameHashes second third) : SameHashes first third :=
  ⟨one.shape.trans two.shape, fun block => (two.hashes block).trans (one.hashes block),
    two.cache.trans one.cache⟩

theorem SameHashes.hashed {pool pool' : Pool Digest} (same : SameHashes pool pool')
    (hashed : Hashed pool) : Hashed pool' :=
  hashed_frame pool pool' hashed same.hashes same.cache same.shape

theorem addRef_sameHashes : SameHashes pool (pool.addRef block amount) :=
  ⟨addRef_shape pool block amount, fun other => addRef_blockHash pool block other amount, rfl⟩

theorem addEvent_sameHashes : SameHashes pool (pool.addEvent event) := by
  obtain ⟨blocks, _, cache, shape⟩ := addEvent_frame pool event
  exact ⟨shape, fun block => by rw [blocks], cache⟩

/-- The hashes after caching: a block keeps its own or gets the one beside it. -/
def Rehashed (pool pool' : Pool Digest) (blocks : List BlockId) (hashes : List (List Digest))
    (groupId : Nat) : Prop :=
  ∀ block, (pool'.blocks block).blockHash = (pool.blocks block).blockHash ∨
    (pool.blocks block).blockHash = none ∧ block ≠ pool.nullBlock ∧
      ∃ (index : Nat) (hash : List Digest), blocks[index]? = some block ∧
        hashes[index]? = some hash ∧ (pool'.blocks block).blockHash = some (hash, groupId)

section
variable [DecidableEq Digest]

variable (cache : BlockHashToBlockMap Digest) (key : HashKey Digest)

theorem pop_members (block : BlockId) (present : block ∈ members (cache key)) :
    (BlockHashToBlockMap.pop cache key block).1 = some block := by
  unfold BlockHashToBlockMap.pop
  cases entry : cache key with
  | none => simp [entry, members] at present
  | some cached =>
    cases cached with
    | single other =>
      simp only [entry, members, mem_singleton] at present
      simp [present]
    | several blocks =>
      simp only [entry, members] at present
      simp [present]

theorem mem_pop (block : BlockId) (present : block ∈ members (cache key)) (other : BlockId)
    (key' : HashKey Digest) :
    other ∈ members ((BlockHashToBlockMap.pop cache key block).2 key') ↔
      other ∈ members (cache key') ∧ (key' = key → other ≠ block) := by
  unfold BlockHashToBlockMap.pop
  by_cases same : key' = key
  · subst same
    cases entry : cache key' with
    | none => simp [entry, members] at present
    | some cached =>
      cases cached with
      | single only =>
        simp only [entry, members, mem_singleton] at present
        simp [present, members]
      | several blocks =>
        have kept : other ∈ blocks.filter (· ≠ block) ↔ other ∈ blocks ∧ other ≠ block := by
          simp
        simp only [update_self, members, forall_const, ← kept]
        generalize blocks.filter (· ≠ block) = rest
        by_cases empty : rest = []
        · simp [empty]
        · simp [empty]
  · cases entry : cache key with
    | none => simp [same]
    | some cached =>
      cases cached with
      | single only =>
        by_cases here : only = block
        · simp [here, same]
        · simp [here, same]
      | several blocks => simp [same]

theorem pop_several {block : BlockId}
    (valid : ∀ key blocks, cache key = some (.several blocks) → blocks ≠ [] ∧ blocks.Nodup)
    {key' : HashKey Digest} {blocks : List BlockId}
    (entry : (BlockHashToBlockMap.pop cache key block).2 key' = some (.several blocks)) :
    blocks ≠ [] ∧ blocks.Nodup := by
  unfold BlockHashToBlockMap.pop at entry
  cases old : cache key with
  | none =>
    rw [old] at entry
    exact valid key' blocks entry
  | some cached =>
    rw [old] at entry
    cases cached with
    | single only =>
      by_cases here : only = block
      · by_cases same : key' = key
        · simp [here, same] at entry
        · simp only [here, ↓reduceIte, update_of_ne same] at entry
          exact valid key' blocks entry
      · simp only [here, ↓reduceIte] at entry
        exact valid key' blocks entry
    | several before =>
      by_cases same : key' = key
      · subst same
        simp only [update_self] at entry
        split at entry
        · contradiction
        · rename_i some
          cases entry
          exact ⟨some, (valid key' before old).2.filter _⟩
      · simp only [update_of_ne same] at entry
        exact valid key' blocks entry

theorem mem_insert (block other : BlockId) (key' : HashKey Digest) :
    other ∈ members (BlockHashToBlockMap.insert cache key block key') ↔
      other ∈ members (cache key') ∨ key' = key ∧ other = block := by
  unfold BlockHashToBlockMap.insert
  by_cases same : key' = key
  · subst same
    rw [update_self]
    cases cache key' with
    | none => simp [members]
    | some cached =>
      cases cached with
      | single present =>
        by_cases here : present = block
        · simp [here, members]
        · simp [here, members]
      | several blocks =>
        by_cases here : block ∈ blocks
        · simp only [here, ↓reduceIte, members, true_and]
          constructor
          · exact Or.inl
          · rintro (inside | rfl)
            · exact inside
            · exact here
        · simp [here, members]
  · simp [same]

theorem insert_several {block : BlockId}
    (valid : ∀ key blocks, cache key = some (.several blocks) → blocks ≠ [] ∧ blocks.Nodup)
    {key' : HashKey Digest} {blocks : List BlockId}
    (entry : BlockHashToBlockMap.insert cache key block key' = some (.several blocks)) :
    blocks ≠ [] ∧ blocks.Nodup := by
  unfold BlockHashToBlockMap.insert at entry
  by_cases same : key' = key
  · subst same
    rw [update_self] at entry
    cases old : cache key' with
    | none => simp [old] at entry
    | some cached =>
      cases cached with
      | single present =>
        by_cases here : present = block
        · simp only [old, here, ↓reduceIte, some.injEq, CachedBlocks.several.injEq] at entry
          subst entry
          simp
        · simp only [old, here, ↓reduceIte, some.injEq, CachedBlocks.several.injEq] at entry
          subst entry
          simp [here]
      | several before =>
        obtain ⟨some, distinct⟩ := valid key' before old
        by_cases here : block ∈ before
        · simp only [old, here, ↓reduceIte, Option.some.injEq, CachedBlocks.several.injEq] at entry
          subst entry
          exact ⟨some, distinct⟩
        · simp only [old, here, ↓reduceIte, Option.some.injEq, CachedBlocks.several.injEq] at entry
          subst entry
          refine ⟨by simp, nodup_append.mpr ⟨distinct, by simp, ?_⟩⟩
          rintro a inside b same rfl
          exact here (mem_singleton.mp same ▸ inside)
  · rw [update_of_ne same] at entry
    exact valid key' blocks entry

/-- What evicting one block does: its hash leaves the block and the map. -/
structure Evicted (pool pool' : Pool Digest) (block : BlockId) : Prop where
  shape : SameShape pool pool'
  queue : pool'.freeBlockQueue = pool.freeBlockQueue
  counts : ∀ other, (pool'.blocks other).refCnt = (pool.blocks other).refCnt
  hashes : ∀ other, (pool'.blocks other).blockHash =
    if other = block then none else (pool.blocks other).blockHash
  hashed : Hashed pool'

/-- A block whose hash and map entry are gone together. -/
theorem evicted_of_pop (pool final : Pool Digest) (block : BlockId) (key : HashKey Digest)
    (hash : (pool.blocks block).blockHash = some key) (hashed : Hashed pool)
    (shape : SameShape pool final) (queue : final.freeBlockQueue = pool.freeBlockQueue)
    (blocks : final.blocks = (pool.setHash block none).blocks)
    (map : final.cachedBlockHashToBlock =
      (BlockHashToBlockMap.pop pool.cachedBlockHashToBlock key block).2) :
    Evicted pool final block := by
  have present := (hashed.mem block key).mp hash
  have hashes (other : BlockId) : (final.blocks other).blockHash =
      if other = block then none else (pool.blocks other).blockHash := by
    rw [blocks, setHash_blockHash]
  refine ⟨shape, queue, ?_, hashes, ?_⟩
  · intro other
    rw [blocks, setHash_refCnt]
  · constructor
    · intro other key'
      rw [hashes other, map, mem_pop _ key block present other key', ← hashed.mem other key']
      by_cases same : other = block
      · subst same
        simp only [↓reduceIte, reduceCtorEq, hash, some.injEq, ne_eq, not_true_eq_false,
          imp_false, false_iff, not_and, not_not]
        exact fun same => same.symm
      · simp [same]
    · intro key' blocks entry
      rw [map] at entry
      exact pop_several _ key hashed.several entry
    · intro other key' given
      rw [hashes other] at given
      rw [shape.nullBlock, shape.numGpuBlocks]
      split at given
      · contradiction
      · exact hashed.real other key' given

theorem maybeEvict_evicted (pool : Pool Digest) (block : BlockId) (hashed : Hashed pool) :
    Evicted pool (pool.maybeEvictCachedBlock block).2 block := by
  cases hash : (pool.blocks block).blockHash with
  | none =>
    have outcome : (pool.maybeEvictCachedBlock block).2 = pool := by
      simp only [Pool.maybeEvictCachedBlock, hash]
    rw [outcome]
    refine ⟨SameShape.refl pool, rfl, fun _ => rfl, ?_, hashed⟩
    intro other
    by_cases same : other = block
    · simp [same, hash]
    · simp [same]
  | some key =>
    have found := pop_members pool.cachedBlockHashToBlock key block ((hashed.mem block key).mp hash)
    cases result : BlockHashToBlockMap.pop pool.cachedBlockHashToBlock key block with
    | mk evicted cache =>
      rw [result] at found
      cases found
      let bare := pool.setHash block none
      let removed := { bare with cachedBlockHashToBlock := cache }
      have outcome : (pool.maybeEvictCachedBlock block).2 =
          removed.addEvent (.blockRemoved [key.1] mediumGpu) := by
        simp only [Pool.maybeEvictCachedBlock, hash, result]
        rfl
      obtain ⟨blocks, queue, map, shape⟩ := addEvent_frame removed (.blockRemoved [key.1] mediumGpu)
      have here : SameShape pool removed := ⟨rfl, rfl, rfl, rfl⟩
      rw [outcome]
      apply evicted_of_pop pool _ block key hash hashed (here.trans shape) queue blocks
      rw [map, result]

theorem cacheOne_hashed (pool : Pool Digest) (block : BlockId) (key : HashKey Digest)
    (hashed : Hashed pool) (bare : (pool.blocks block).blockHash = none)
    (real : block ≠ pool.nullBlock) (within : block < pool.numGpuBlocks) :
    Hashed { pool.setHash block (some key) with
      cachedBlockHashToBlock :=
        BlockHashToBlockMap.insert pool.cachedBlockHashToBlock key block } := by
  constructor
  · intro other key'
    rw [mem_insert, ← hashed.mem other key']
    by_cases same : other = block
    · simp [same, bare, eq_comm]
    · simp [same]
  · intro key' blocks entry
    exact insert_several _ key hashed.several entry
  · intro other key' given
    change other ≠ pool.nullBlock ∧ other < pool.numGpuBlocks
    rw [setHash_blockHash] at given
    by_cases same : other = block
    · exact same ▸ ⟨real, within⟩
    · simp only [same, ↓reduceIte] at given
      exact hashed.real other key' given

theorem cacheLoop_hashed (groupId : Nat) (pool : Pool Digest) (blocks : List BlockId)
    (hashes : List (List Digest)) (hashed : Hashed pool)
    (valid : ∀ block ∈ blocks, block = pool.nullBlock ∨ block < pool.numGpuBlocks)
    (pool' : Pool Digest) (newHashes : List (List Digest))
    (cached : pool.cacheLoop groupId blocks hashes = some (pool', newHashes)) :
    Hashed pool' ∧ SameCounts pool pool' ∧ Rehashed pool pool' blocks hashes groupId := by
  induction blocks generalizing pool hashes newHashes with
  | nil =>
    simp only [Pool.cacheLoop, some.injEq, Prod.mk.injEq] at cached
    obtain ⟨rfl, rfl⟩ := cached
    exact ⟨hashed, SameCounts.refl pool, fun _ => Or.inl rfl⟩
  | cons block rest ih =>
    have validRest : ∀ other ∈ rest, other = pool.nullBlock ∨ other < pool.numGpuBlocks :=
      fun other member => valid other (mem_cons_of_mem _ member)
    by_cases null : block = pool.nullBlock
    · simp only [Pool.cacheLoop, Pool.isNull, null, decide_true, ↓reduceIte] at cached
      obtain ⟨hashed', same, rehashed⟩ := ih pool hashes.tail hashed validRest newHashes cached
      refine ⟨hashed', same, fun other => ?_⟩
      rcases rehashed other with kept | ⟨bare, real, index, hash, atIndex, hashAt, final⟩
      · exact Or.inl kept
      · refine Or.inr ⟨bare, real, index + 1, hash, by simpa using atIndex, ?_, final⟩
        rw [← hashAt, getElem?_tail]
    · simp only [Pool.cacheLoop, Pool.isNull, null, decide_false, Bool.false_eq_true,
        ↓reduceIte] at cached
      cases old : (pool.blocks block).blockHash with
      | some key => simp [old] at cached
      | none =>
        cases hashes with
        | nil => simp [old] at cached
        | cons hash hashes =>
          simp only [old, map_eq_some_iff, Prod.exists, Prod.mk.injEq] at cached
          obtain ⟨final, others, result, rfl, _⟩ := cached
          have within := (valid block mem_cons_self).resolve_left null
          have hashedNow := cacheOne_hashed pool block (hash, groupId) hashed old null within
          obtain ⟨hashed', same, rehashed⟩ := ih _ hashes hashedNow validRest others result
          have first : SameCounts pool { pool.setHash block (some (hash, groupId)) with
              cachedBlockHashToBlock := BlockHashToBlockMap.insert
                pool.cachedBlockHashToBlock (hash, groupId) block } :=
            ⟨⟨rfl, rfl, rfl, rfl⟩, rfl, fun other => setHash_refCnt pool block other _⟩
          refine ⟨hashed', first.trans same, fun other => ?_⟩
          have now := setHash_blockHash pool block other (some (hash, groupId))
          rcases rehashed other with kept | ⟨bare, real, index, later, atIndex, hashAt, final⟩
          · by_cases here : other = block
            · subst here
              refine Or.inr ⟨old, null, 0, hash, rfl, rfl, ?_⟩
              rw [kept]
              simp
            · refine Or.inl (kept.trans ?_)
              simp [here]
          · refine Or.inr ⟨?_, real, index + 1, later, by simpa using atIndex,
              by simpa using hashAt, final⟩
            rw [now] at bare
            split at bare
            · contradiction
            · exact bare

theorem cacheFullBlocks_hashed {pool : Pool Digest} {request : Request Digest}
    (blocks : List BlockId) {numCachedBlocks numFullBlocks blockSize groupId : Nat}
    (hashed : Hashed pool)
    (valid : ∀ block ∈ blocks, block = pool.nullBlock ∨ block < pool.numGpuBlocks)
    {pool' : Pool Digest}
    (cached : pool.cacheFullBlocks request blocks numCachedBlocks numFullBlocks blockSize groupId =
      some pool') :
    Hashed pool' ∧ SameCounts pool pool' ∧
      Rehashed pool pool' ((blocks.take numFullBlocks).drop numCachedBlocks)
        ((hashesWithBlockSize request.blockHashes pool.hashBlockSize blockSize).drop
          numCachedBlocks) groupId := by
  unfold Pool.cacheFullBlocks at cached
  split at cached
  · cases cached
    exact ⟨hashed, SameCounts.refl pool, fun _ => Or.inl rfl⟩
  · split at cached
    · contradiction
    · split at cached
      · contradiction
      · simp only at cached
        split at cached
        · contradiction
        · rename_i now newHashes result
          have loop := cacheLoop_hashed groupId pool _ _ hashed (fun block member =>
            valid block (mem_of_mem_take (mem_of_mem_drop member))) now newHashes result
          split at cached
          · rw [map_eq_some_iff] at cached
            obtain ⟨event, _, rfl⟩ := cached
            obtain ⟨hashedNow, same, rehashed⟩ := loop
            have keeps := addEvent_sameHashes now event
            refine ⟨keeps.hashed hashedNow, same.trans (addEvent_sameCounts now event), ?_⟩
            intro block
            rw [keeps.hashes block]
            exact rehashed block
          · cases cached
            exact loop

/-- Evicting blocks takes hashes away and nothing else. -/
theorem evictBlocks_hashed (pool : Pool Digest) (blockIds : List BlockId) (hashed : Hashed pool)
    (pool' : Pool Digest) (evicted : pool.evictBlocks blockIds = some pool') :
    Hashed pool' ∧ SameCounts pool pool' ∧
      ∀ block, (pool'.blocks block).blockHash = (pool.blocks block).blockHash ∨
        (pool'.blocks block).blockHash = none := by
  induction blockIds generalizing pool with
  | nil =>
    rw [Pool.evictBlocks, some.injEq] at evicted
    subst evicted
    exact ⟨hashed, SameCounts.refl _, fun _ => Or.inl rfl⟩
  | cons blockId rest ih =>
    rw [Pool.evictBlocks] at evicted
    split at evicted
    · have gone := maybeEvict_evicted pool blockId hashed
      obtain ⟨hashed', same, hashes⟩ := ih _ gone.hashed evicted
      have first : SameCounts pool (pool.maybeEvictCachedBlock blockId).2 :=
        ⟨gone.shape, gone.queue, gone.counts⟩
      refine ⟨hashed', first.trans same, fun block => ?_⟩
      rcases hashes block with kept | none
      · rw [kept, gone.hashes block]
        split
        · exact Or.inr rfl
        · exact Or.inl rfl
      · exact Or.inr none
    · contradiction

end

theorem resetPrefixCache_hashed {pool : Pool Digest} (hashed : Hashed pool) :
    Hashed pool.resetPrefixCache.2 ∧ SameCounts pool pool.resetPrefixCache.2 ∧
      ∀ block, (pool.resetPrefixCache.2.blocks block).blockHash = (pool.blocks block).blockHash ∨
        (pool.resetPrefixCache.2.blocks block).blockHash = none := by
  unfold Pool.resetPrefixCache
  split
  · exact ⟨hashed, SameCounts.refl pool, fun _ => Or.inl rfl⟩
  · let cleared : Pool Digest :=
      { pool with
        cachedBlockHashToBlock := fun _ => none
        blocks := fun block => { pool.blocks block with blockHash := none } }
    have counts : SameCounts pool cleared := ⟨⟨rfl, rfl, rfl, rfl⟩, rfl, fun _ => rfl⟩
    have empty : Hashed cleared := by
      constructor
      · simp [cleared, members]
      · intro key blocks entry
        contradiction
      · intro block key hash
        contradiction
    have keeps := addEvent_sameHashes cleared .allBlocksCleared
    refine ⟨keeps.hashed empty, counts.trans (addEvent_sameCounts cleared _), ?_⟩
    intro block
    exact Or.inr (keeps.hashes block)

end VllmDcu.PoolCache

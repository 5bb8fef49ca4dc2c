import VllmDcu.PoolInvariant
import VllmDcu.BlockHashes

/-! Where blocks may sit. With a collision-free hash the hash of a block tells its
index, so a block that is shared through the prefix cache sits at one index of the
tables of one group. `places` are the entries of the tables: a block, its group and
its index. -/
namespace VllmDcu.SharedPrefix
open Requests FreeBlockQueue BlockPool KVCacheInterface MathUtils SingleTypeManager CacheManager
open HashChain BlockHashes PoolCache PoolAccounts TableAccounts TableTurns PoolInvariant
open List Option Dict

variable {Digest : Type}

/-! Depths. -/

section Depths
variable (hash : Digest × Payload Digest → Digest) (root : Digest)

/-- The block hashes of a request are the digests of one chain. -/
def Chained (request : Request Digest) : Prop :=
  ∃ chain, request.blockHashes = digests hash root chain

/-- A block hash begins with the digest of a chain of `depth + 1` blocks. -/
def AtDepth (depth : Nat) (blockHash : List Digest) : Prop :=
  ∃ chain : List (Payload Digest), chain.length = depth + 1 ∧
    blockHash.head? = some (digest hash root chain)

variable {hash root}

theorem atDepth_unique (collisionFree : Function.Injective hash) (fresh : ∀ input, hash input ≠ root)
    (first second : Nat) (blockHash : List Digest) (one : AtDepth hash root first blockHash)
    (two : AtDepth hash root second blockHash) : first = second := by
  obtain ⟨chain, length, head⟩ := one
  obtain ⟨chain', length', head'⟩ := two
  have same : digest hash root chain = digest hash root chain' := some.inj (head.symm.trans head')
  have equal := digest_injective collisionFree root fresh chain chain' same
  rw [equal] at length
  omega

/-- Entry `index` of a request's hashes for larger blocks begins at its first small block. -/
theorem hashes_atDepth {request : Request Digest} (chained : Chained hash root request)
    {hashBlockSize blockSize index : Nat} {blockHash : List Digest}
    (given : (hashesWithBlockSize request.blockHashes hashBlockSize blockSize)[index]? =
      some blockHash) :
    0 < blockSize / hashBlockSize ∧
      AtDepth hash root (index * (blockSize / hashBlockSize)) blockHash := by
  obtain ⟨chain, hashes⟩ := chained
  simp only [hashesWithBlockSize, getElem?_map, map_eq_some_iff] at given
  obtain ⟨position, inside, rfl⟩ := given
  rw [List.getElem?_eq_some_iff] at inside
  obtain ⟨within, rfl⟩ := inside
  rw [length_range] at within
  rw [getElem_range]
  generalize blockSize / hashBlockSize = scale at within ⊢
  have positive : 0 < scale := by
    by_contra zero
    rw [Nat.le_zero.mp (Nat.not_lt.mp zero), Nat.div_zero] at within
    exact Nat.not_lt_zero _ within
  have length : request.blockHashes.length = chain.length := by rw [hashes, digests_length]
  have enough : (index + 1) * scale ≤ chain.length := by
    rw [← length]
    exact (Nat.le_div_iff_mul_le positive).mp within
  rw [Nat.succ_mul] at enough
  refine ⟨positive, chain.take (index * scale + 1), ?_, ?_⟩
  · rw [length_take]
    omega
  · rw [head?_take, if_neg (Nat.ne_of_gt positive), head?_drop, hashes]
    exact digests_getElem? hash root chain (index * scale) (by omega)

variable (hasher : BlockHasher Digest)

/-- The hasher's loop goes on with the chain of the hash that it starts from. -/
theorem hashBlocksFrom_chain (request : Request Digest) (fuel startTokenIdx : Nat)
    (prev : Option Digest) (cursor : Int) :
    ∃ chain, hashBlocksFrom hasher request fuel startTokenIdx prev cursor =
      digests hasher.cachingHashFn (prev.getD hasher.noneHash) chain := by
  induction fuel generalizing startTokenIdx prev cursor with
  | zero => exact ⟨[], rfl⟩
  | succ fuel ih =>
    simp only [hashBlocksFrom]
    split
    · exact ⟨[], rfl⟩
    · obtain ⟨chain, later⟩ := ih (startTokenIdx + hasher.blockSize) (some _) _
      rw [later]
      exact ⟨(_, _) :: chain, rfl⟩

theorem updateBlockHashes_chained (request : Request Digest)
    (given : request.blockHasher = some hasher)
    (chained : Chained hasher.cachingHashFn hasher.noneHash request) :
    Chained hasher.cachingHashFn hasher.noneHash request.updateBlockHashes := by
  obtain ⟨chain, sofar⟩ := chained
  obtain ⟨later, fresh⟩ := hashBlocksFrom_chain hasher request request.numTokens
    (request.blockHashes.length * hasher.blockSize) request.blockHashes.getLast?
    (if request.blockHashes.length * hasher.blockSize > 0 then -1 else 0)
  refine ⟨chain ++ later, ?_⟩
  simp only [Request.updateBlockHashes, Request.newBlockHashes, given, requestBlockHasher]
  rw [fresh, digests_append]
  congr 2
  rw [sofar]
  exact digests_getLast? _ _ chain

/-- The hashes of a new request spell one chain, and appended tokens go on with it. -/
theorem init_chained {args : RequestArgs Digest} (given : args.blockHasher = some hasher)
    (request : Request Digest) (created : Request.init args = some request) :
    Chained hasher.cachingHashFn hasher.noneHash request := by
  obtain ⟨maxTokens, structured, status, rfl⟩ := init_cases created
  exact updateBlockHashes_chained hasher _ given ⟨[], rfl⟩

end Depths

/-! Places. -/

/-- An entry of a table of the manager. -/
def Placed (manager : Manager Digest) (block : BlockId) (group index : Nat) : Prop :=
  manager.kvCacheGroupId = group ∧ ∃ requestId, (manager.blocksOf requestId)[index]? = some block

section Places
variable (hash : Digest × Payload Digest → Digest) (root : Digest) (scaleOf : Nat → Nat)

/-- The key of a block with this hash in this group belongs at an index. -/
def Fitting (group index : Nat) (key : HashKey Digest) : Prop :=
  key.2 = group ∧ AtDepth hash root (index * scaleOf group) key.1

structure Aligned (pool : Pool Digest) (places : BlockId → Nat → Nat → Prop) : Prop where
  one : ∀ block group index group' index', places block group index →
    places block group' index' → group = group' ∧ index = index'
  real : ∀ block group index, places block group index → block ≠ pool.nullBlock
  fitting : ∀ block group index key, places block group index →
    (pool.blocks block).blockHash = some key → Fitting hash root scaleOf group index key
  unhashed : pool.enableCaching = false → ∀ block, (pool.blocks block).blockHash = none

/-- Hashes are only lost. -/
def Lost (pool pool' : Pool Digest) : Prop :=
  ∀ block, (pool'.blocks block).blockHash = (pool.blocks block).blockHash ∨
    (pool'.blocks block).blockHash = none

/-- One manager beside others, whose entries are `places` and counted by `rest`. -/
structure Lined (pool : Pool Digest) (manager : Manager Digest) (rest : BlockId → Nat)
    (places : BlockId → Nat → Nat → Prop) : Prop where
  sound : Sound pool manager rest
  aligned : Aligned hash root scaleOf pool fun block group index =>
    Placed manager block group index ∨ places block group index
  backed : ∀ block group index, places block group index → 0 < rest block

variable {hash root scaleOf}

variable {pool : Pool Digest}

theorem Aligned.mono {places places' : BlockId → Nat → Nat → Prop}
    (aligned : Aligned hash root scaleOf pool places)
    (fewer : ∀ block group index, places' block group index → places block group index) :
    Aligned hash root scaleOf pool places' := by
  constructor
  · exact fun block group index group' index' here there =>
      aligned.one block group index group' index' (fewer _ _ _ here) (fewer _ _ _ there)
  · exact fun block group index here => aligned.real block group index (fewer _ _ _ here)
  · exact fun block group index key here => aligned.fitting block group index key (fewer _ _ _ here)
  · exact aligned.unhashed

theorem Aligned.lost {pool pool' : Pool Digest} {places : BlockId → Nat → Nat → Prop}
    (aligned : Aligned hash root scaleOf pool places) (shape : SameShape pool pool')
    (lost : Lost pool pool') : Aligned hash root scaleOf pool' places := by
  constructor
  · exact aligned.one
  · intro block group index here
    rw [shape.nullBlock]
    exact aligned.real block group index here
  · intro block group index key here hashed
    rcases lost block with kept | gone
    · exact aligned.fitting block group index key here (kept.symm.trans hashed)
    · rw [gone] at hashed
      contradiction
  · intro off block
    rcases lost block with kept | gone
    · rw [kept]
      exact aligned.unhashed (shape.enableCaching.symm.trans off) block
    · exact gone

/-- A block that nobody references has no place. -/
theorem Lined.unplaced {manager : Manager Digest} {rest : BlockId → Nat}
    {places : BlockId → Nat → Nat → Prop} (lined : Lined hash root scaleOf pool manager rest places)
    (block : BlockId) (unused : occurrences manager block + rest block = 0) (group index : Nat) :
    ¬ (Placed manager block group index ∨ places block group index) := by
  rintro (⟨-, requestId, entry⟩ | other)
  · have most := occurrences_le manager requestId block
    have positive := count_pos_iff.mpr (mem_of_getElem? entry)
    omega
  · have positive := lined.backed block group index other
    omega

/-- What a block that is new at an index of the manager's group must satisfy. -/
structure Newcomer (pool' : Pool Digest) (manager : Manager Digest)
    (places : BlockId → Nat → Nat → Prop) (after : List BlockId) (index : Nat) (block : BlockId) :
    Prop where
  real : block ≠ pool'.nullBlock
  here : ∀ group index', (Placed manager block group index' ∨ places block group index') →
    group = manager.kvCacheGroupId ∧ index' = index
  once : ∀ index', after[index']? = some block → index' = index
  fitting : ∀ key, (pool'.blocks block).blockHash = some key →
    Fitting hash root scaleOf manager.kvCacheGroupId index key

/-- A request's table changes: entries stay where they are, or are newcomers. -/
theorem Lined.replace {pool' : Pool Digest} {manager manager' : Manager Digest}
    {rest : BlockId → Nat} {places : BlockId → Nat → Nat → Prop}
    (lined : Lined hash root scaleOf pool manager rest places) (requestId : ReqId)
    (after : List BlockId) (sound : Sound pool' manager' rest)
    (group : manager'.kvCacheGroupId = manager.kvCacheGroupId) (shape : SameShape pool pool')
    (lost : Lost pool pool')
    (tables : ∀ other, manager'.blocksOf other =
      if other = requestId then after else manager.blocksOf other)
    (entries : ∀ (index : Nat) (block : BlockId), after[index]? = some block →
      (manager.blocksOf requestId)[index]? = some block ∨
        @Newcomer Digest hash root scaleOf pool' manager places after index block) :
    Lined hash root scaleOf pool' manager' rest places := by
  have old := lined.aligned.lost shape lost
  -- Every entry now was one before or is a newcomer of this group.
  have split (block : BlockId) (group' index : Nat) (here : Placed manager' block group' index) :
      Placed manager block group' index ∨ group' = manager.kvCacheGroupId ∧
        after[index]? = some block ∧
        @Newcomer Digest hash root scaleOf pool' manager places after index block := by
    obtain ⟨same, other, entry⟩ := here
    rw [tables] at entry
    split at entry
    · rcases entries index block entry with kept | newcomer
      · exact Or.inl ⟨group.symm.trans same, requestId, kept⟩
      · exact Or.inr ⟨same.symm.trans group, entry, newcomer⟩
    · exact Or.inl ⟨group.symm.trans same, other, entry⟩
  constructor
  · exact sound
  · constructor
    · rintro block first index second index' (here | here) (there | there)
      · rcases split block first index here with old₁ | ⟨rfl, listed, newcomer⟩
        · rcases split block second index' there with old₂ | ⟨rfl, -, newcomer⟩
          · exact old.one block first index second index' (Or.inl old₁) (Or.inl old₂)
          · exact newcomer.here first index (Or.inl old₁)
        · rcases split block second index' there with old₂ | ⟨rfl, listed', -⟩
          · obtain ⟨same, at'⟩ := newcomer.here second index' (Or.inl old₂)
            exact ⟨same.symm, at'.symm⟩
          · exact ⟨rfl, (newcomer.once index' listed').symm⟩
      · rcases split block first index here with old₁ | ⟨rfl, -, newcomer⟩
        · exact old.one block first index second index' (Or.inl old₁) (Or.inr there)
        · obtain ⟨same, at'⟩ := newcomer.here second index' (Or.inr there)
          exact ⟨same.symm, at'.symm⟩
      · rcases split block second index' there with old₂ | ⟨rfl, -, newcomer⟩
        · exact old.one block first index second index' (Or.inr here) (Or.inl old₂)
        · exact newcomer.here first index (Or.inr here)
      · exact old.one block first index second index' (Or.inr here) (Or.inr there)
    · rintro block first index (here | here)
      · rcases split block first index here with old₁ | ⟨-, -, newcomer⟩
        · exact old.real block first index (Or.inl old₁)
        · exact newcomer.real
      · exact old.real block first index (Or.inr here)
    · rintro block first index key (here | here) hashed
      · rcases split block first index here with old₁ | ⟨rfl, -, newcomer⟩
        · exact old.fitting block first index key (Or.inl old₁) hashed
        · exact newcomer.fitting key hashed
      · exact old.fitting block first index key (Or.inr here) hashed
    · exact old.unhashed
  · exact lined.backed

/-- Only the tables matter. -/
theorem Lined.frame {manager manager' : Manager Digest} {rest : BlockId → Nat}
    {places : BlockId → Nat → Nat → Prop} (lined : Lined hash root scaleOf pool manager rest places)
    (group : manager'.kvCacheGroupId = manager.kvCacheGroupId)
    (tables : manager'.reqToBlocks = manager.reqToBlocks) :
    Lined hash root scaleOf pool manager' rest places := by
  constructor
  · exact sound_frame pool lined.sound tables
  · apply lined.aligned.mono
    rintro block group' index (⟨same, requestId, entry⟩ | other)
    · refine Or.inl ⟨group.symm.trans same, requestId, ?_⟩
      rwa [blocksOf_frame tables] at entry
    · exact Or.inr other
  · exact lined.backed

/-! The calls on a manager. -/

section Calls
variable [DecidableEq Digest]

omit [DecidableEq Digest] in
theorem SameHashes.lost {pool pool' : Pool Digest} (same : SameHashes pool pool') : Lost pool pool' :=
  fun block => Or.inl (same.hashes block)

omit [DecidableEq Digest] in
theorem Lost.trans {first second third : Pool Digest} (one : Lost first second)
    (two : Lost second third) : Lost first third := by
  intro block
  rcases two block with kept | gone
  · rw [kept]
    exact one block
  · exact Or.inr gone

theorem maybeEvict_lost {pool : Pool Digest} {block : BlockId} :
    Lost pool (pool.maybeEvictCachedBlock block).2 := by
  intro other
  unfold Pool.maybeEvictCachedBlock
  cases (pool.blocks block).blockHash with
  | none => exact Or.inl rfl
  | some key =>
    simp only
    cases BlockHashToBlockMap.pop pool.cachedBlockHashToBlock key block with
    | mk found cache =>
      cases found with
      | none => exact Or.inl rfl
      | some evicted =>
        have gone := (addEvent_sameHashes
          { pool.setHash block none with cachedBlockHashToBlock := cache }
          (.blockRemoved [key.1] mediumGpu)).hashes other
        rw [gone]
        rw [setHash_blockHash]
        split
        · exact Or.inr rfl
        · exact Or.inl rfl

theorem takeLoop_lost (pool pool' : Pool Digest) (ids : List BlockId)
    (taken : pool.takeLoop ids = some pool') : Lost pool pool' := by
  induction ids generalizing pool with
  | nil =>
    obtain rfl := some.inj taken
    exact fun _ => Or.inl rfl
  | cons block rest ih =>
    obtain ⟨evicted, gone, taken⟩ : ∃ evicted : Pool Digest, Lost pool evicted ∧
        (evicted.addRef block 1).takeLoop rest = some pool' := by
      rw [Pool.takeLoop] at taken
      split at taken
      · split at taken
        · exact ⟨_, maybeEvict_lost, taken⟩
        · contradiction
      · split at taken
        · exact ⟨pool, fun _ => Or.inl rfl, taken⟩
        · contradiction
    exact gone.trans ((SameHashes.lost (addRef_sameHashes evicted block 1)).trans (ih _ taken))

theorem getNewBlocks_lost {pool pool' : Pool Digest} {numBlocks : Int} {ids : List BlockId}
    (got : pool.getNewBlocks numBlocks = some (ids, pool')) : Lost pool pool' := by
  unfold Pool.getNewBlocks at got
  split at got
  · contradiction
  · split at got
    · contradiction
    · obtain ⟨final, taken, same⟩ := map_eq_some_iff.mp got
      obtain ⟨-, rfl⟩ := Prod.mk.inj same
      exact fun block => takeLoop_lost _ final _ taken block

/-- New blocks come to the end of a table without a hash. -/
theorem Lined.append {pool pool' : Pool Digest} {manager : Manager Digest} {rest : BlockId → Nat}
    {places : BlockId → Nat → Nat → Prop} (lined : Lined hash root scaleOf pool manager rest places)
    (requestId : ReqId) (numBlocks : Nat) (ids : List BlockId)
    (got : pool.getNewBlocks numBlocks = some (ids, pool')) :
    Lined hash root scaleOf pool'
      (manager.setBlocks requestId (manager.blocksOf requestId ++ ids)) rest places ∧
      SameShape pool pool' := by
  obtain ⟨sound, shape⟩ := append_sound lined.sound got
  obtain ⟨-, distinct, fresh, taken, -, -⟩ := getNewBlocks_taken
    lined.sound.counted lined.sound.hashed got
  have lost := getNewBlocks_lost got
  have bare (block : BlockId) (member : block ∈ ids) : (pool'.blocks block).blockHash = none := by
    cases caching : pool.enableCaching with
    | true => exact taken.cleared caching block member
    | false =>
      rcases lost block with kept | gone
      · rw [kept]
        exact lined.aligned.unhashed caching block
      · exact gone
  refine ⟨?_, shape⟩
  apply lined.replace requestId (manager.blocksOf requestId ++ ids) sound rfl shape lost
  · exact fun other => blocksOf_set manager requestId other _
  · intro index block listed
    by_cases before : index < (manager.blocksOf requestId).length
    · rw [getElem?_append_left before] at listed
      exact Or.inl listed
    · rw [getElem?_append_right (by omega)] at listed
      obtain ⟨-, real, unused⟩ := fresh block (mem_of_getElem? listed)
      have absent := lined.unplaced block unused
      refine Or.inr ⟨?_, ?_, ?_, ?_⟩
      · rw [shape.nullBlock]
        exact real
      · exact fun group index' here => absurd here (absent group index')
      · intro index' again
        by_cases early : index' < (manager.blocksOf requestId).length
        · rw [getElem?_append_left early] at again
          exact absurd (Or.inl ⟨rfl, requestId, again⟩) (absent manager.kvCacheGroupId index')
        · rw [getElem?_append_right (by omega)] at again
          have within := (List.getElem?_eq_some_iff.mp listed).1
          have same := (getElem?_inj within distinct).mp (listed.trans again.symm)
          omega
      · intro key hashed
        rw [bare block (mem_of_getElem? listed)] at hashed
        contradiction

omit [DecidableEq Digest] in
theorem fitting_unique (collisionFree : Function.Injective hash) (fresh : ∀ input, hash input ≠ root)
    {group group' index index' : Nat} (positive : 0 < scaleOf group) {key : HashKey Digest}
    (here : Fitting hash root scaleOf group index key)
    (there : Fitting hash root scaleOf group' index' key) : group = group' ∧ index = index' := by
  have same : group = group' := here.1.symm.trans there.1
  subst same
  have depth := atDepth_unique collisionFree fresh _ _ key.1 here.2 there.2
  exact ⟨rfl, Nat.eq_of_mul_eq_mul_right positive depth⟩

/-- Cached blocks, each under a hash of its index. -/
def Hits (hash : Digest × Payload Digest → Digest) (root : Digest) (scaleOf : Nat → Nat)
    (pool : Pool Digest) (group : Nat) (blocks : List BlockId) : Prop :=
  ∀ (index : Nat) (block : BlockId), blocks[index]? = some block →
    ∃ key, (pool.blocks block).blockHash = some key ∧ Fitting hash root scaleOf group index key

omit [DecidableEq Digest] in
theorem Hits.nodup {pool : Pool Digest} {group : Nat} {blocks : List BlockId}
    (collisionFree : Function.Injective hash) (fresh : ∀ input, hash input ≠ root)
    (positive : 0 < scaleOf group) (hits : Hits hash root scaleOf pool group blocks) :
    blocks.Nodup := by
  rw [nodup_iff_getElem?_ne_getElem?]
  intro index index' before within same
  obtain ⟨key, hashed, fitting⟩ := hits index' blocks[index'] (getElem?_eq_getElem within)
  obtain ⟨key', hashed', fitting'⟩ := hits index blocks[index']
    (same.trans (getElem?_eq_getElem within))
  obtain rfl : key = key' := some.inj (hashed.symm.trans hashed')
  have := (fitting_unique collisionFree fresh positive fitting fitting').2
  omega

omit [DecidableEq Digest] in
/-- Cached blocks become the table of a request that has none. -/
theorem Lined.share {pool pool' : Pool Digest} {manager : Manager Digest} {rest : BlockId → Nat}
    {places : BlockId → Nat → Nat → Prop} (lined : Lined hash root scaleOf pool manager rest places)
    (collisionFree : Function.Injective hash) (fresh : ∀ input, hash input ≠ root)
    (requestId : ReqId) (empty : manager.blocksOf requestId = []) (blocks : List BlockId)
    (positive : blocks ≠ [] → 0 < scaleOf manager.kvCacheGroupId)
    (hits : Hits hash root scaleOf pool manager.kvCacheGroupId blocks)
    (touched : pool.touch blocks = some pool') :
    Lined hash root scaleOf pool' (manager.setBlocks requestId blocks) rest places ∧
      SameHashes pool pool' := by
  have real (block : BlockId) (member : block ∈ blocks) :
      block ≠ pool.nullBlock ∧ block < pool.numGpuBlocks := by
    obtain ⟨index, entry⟩ := getElem?_of_mem member
    obtain ⟨key, hashed, -⟩ := hits index block entry
    exact lined.sound.hashed.real block key hashed
  have distinct : blocks.Nodup := by
    by_cases none : blocks = []
    · rw [none]
      exact nodup_nil
    · exact hits.nodup collisionFree fresh (positive none)
  have valid : ∀ block ∈ blocks, block = pool.nullBlock ∨ block < pool.numGpuBlocks :=
    fun block member => Or.inr (real block member).2
  obtain ⟨final, result, same, -⟩ := touch_counted pool blocks _ lined.sound.counted valid
  obtain rfl : final = pool' := some.inj (result.symm.trans touched)
  obtain ⟨sound, shape⟩ := touch_sound lined.sound empty valid
    (fun block _ => nodup_iff_count_le_one.mp distinct block) 0 touched
  refine ⟨?_, same⟩
  apply lined.replace requestId blocks sound rfl shape (SameHashes.lost same)
  · exact fun other => blocksOf_set manager requestId other blocks
  · intro index block listed
    obtain ⟨key, hashed, fitting⟩ := hits index block listed
    refine Or.inr ⟨?_, ?_, ?_, ?_⟩
    · rw [shape.nullBlock]
      exact (real block (mem_of_getElem? listed)).1
    · intro group index' here
      have there := lined.aligned.fitting block group index' key here hashed
      obtain ⟨same, at'⟩ := fitting_unique collisionFree fresh
        (positive (ne_nil_of_mem (mem_of_getElem? listed))) fitting there
      exact ⟨same.symm, at'.symm⟩
    · intro index' again
      exact ((getElem?_inj (List.getElem?_eq_some_iff.mp again).1 distinct).mp
        (again.trans listed.symm))
    · intro key' hashed'
      rw [same.hashes block, hashed] at hashed'
      obtain rfl := some.inj hashed'
      exact fitting

omit [DecidableEq Digest] in
theorem Lined.free {pool pool' : Pool Digest} {manager manager' : Manager Digest}
    {rest : BlockId → Nat} {places : BlockId → Nat → Nat → Prop}
    (lined : Lined hash root scaleOf pool manager rest places) (requestId : ReqId)
    (freed : manager.free pool requestId = some (pool', manager')) :
    Lined hash root scaleOf pool' manager' rest places := by
  obtain ⟨sound, shape, same⟩ := free_sound manager pool lined.sound freed
  obtain ⟨final, result, equal⟩ := map_eq_some_iff.mp freed
  obtain ⟨rfl, rfl⟩ := Prod.mk.inj equal
  have hashes := (KVEvents.freeBlocks_quiet pool final result).hashes
  apply lined.replace requestId [] sound same.kvCacheGroupId shape (SameHashes.lost hashes)
  · intro other
    simp only [Manager.blocksOf, get?_erase]
    by_cases here : other = requestId
    · simp [here]
    · simp [here]
  · intro index block listed
    cases listed

/-- Caching gives the blocks of a table the hashes of their indices. -/
theorem Lined.cache {pool pool' : Pool Digest} {manager manager' : Manager Digest}
    {rest : BlockId → Nat} {places : BlockId → Nat → Nat → Prop}
    (lined : Lined hash root scaleOf pool manager rest places) (request : Request Digest)
    (chained : Chained hash root request)
    (scale : scaleOf manager.kvCacheGroupId = manager.blockSize / pool.hashBlockSize)
    (caching : pool.enableCaching = true) (numTokens : Int)
    (cached : manager.baseCacheBlocks pool request numTokens = some (pool', manager')) :
    Lined hash root scaleOf pool' manager' rest places := by
  obtain ⟨sound, -, same⟩ := baseCacheBlocks_sound lined.sound cached
  obtain ⟨counts, -, tables, -, -⟩ := baseCacheBlocks_frame cached
  have shape := counts.shape
  have placed (block : BlockId) (group index : Nat)
      (here : Placed manager' block group index ∨ places block group index) :
      Placed manager block group index ∨ places block group index := by
    rcases here with ⟨same', requestId, entry⟩ | other
    · rw [tables] at entry
      exact Or.inl ⟨same.kvCacheGroupId.symm.trans same', requestId, entry⟩
    · exact Or.inr other
  have old := lined.aligned.mono placed
  constructor
  · exact sound
  · constructor
    · exact old.one
    · intro block group index here
      rw [shape.nullBlock]
      exact old.real block group index here
    · intro block group index key here hashed
      unfold Manager.baseCacheBlocks at cached
      simp only at cached
      split at cached
      · obtain ⟨rfl, rfl⟩ : pool = pool' ∧ manager = manager' := by simpa using cached
        exact old.fitting block group index key here hashed
      · obtain ⟨final, result, equal⟩ := map_eq_some_iff.mp cached
        obtain ⟨rfl, rfl⟩ := Prod.mk.inj equal
        obtain ⟨-, -, rehashed⟩ := cacheFullBlocks_hashed _ lined.sound.hashed
          (table_valid pool lined.sound) result
        rcases rehashed block with kept | ⟨-, -, position, blockHash, entry, hashAt, now⟩
        · exact old.fitting block group index key here (kept.symm.trans hashed)
        · obtain rfl := some.inj (now.symm.trans hashed)
          -- The block sits at the index that it is hashed for.
          rw [getElem?_drop] at entry hashAt
          have listed : (manager.blocksOf request.requestId)[
              (manager.numCachedBlock.get? request.requestId).getD 0 + position]? = some block := by
            rw [getElem?_take] at entry
            split at entry
            · exact entry
            · contradiction
          obtain ⟨rfl, rfl⟩ := old.one block group index manager.kvCacheGroupId _ here
            (Or.inl ⟨same.kvCacheGroupId, request.requestId, by rw [tables]; exact listed⟩)
          obtain ⟨-, depth⟩ := hashes_atDepth chained hashAt
          refine ⟨rfl, ?_⟩
          rw [scale]
          exact depth
    · intro off
      rw [shape.enableCaching, caching] at off
      contradiction
  · exact lined.backed

end Calls
end Places

end VllmDcu.SharedPrefix

import VllmDcu.PoolAccounts
import Mathlib.Data.Finset.Union

/-! The event stream of the block pool against its prefix cache. A consumer keeps a
set of external hashes: a stored block adds its hash, a removed one takes it away.
The pool emits its events per block, so that the two agree as long as no block is
evicted while another one is cached under the same hash. -/
namespace VllmDcu.KVEvents
open Requests FreeBlockQueue BlockPool PoolCache PoolAccounts List
variable {Digest External : Type} [DecidableEq External]

/-- `take_events`. -/
def takeEvents (pool : Pool Digest) : List (KVCacheEvent Digest) × Pool Digest :=
  if pool.enableKvCacheEvents then (pool.kvEventQueue, { pool with kvEventQueue := [] })
  else ([], pool)

/-- The consumer's set after one event; `convert` is `maybe_convert_block_hash`. -/
def replayEvent (convert : List Digest → External) (held : Finset External) :
    KVCacheEvent Digest → Finset External
  | .blockStored blockHashes _ _ _ _ _ _ _ => held ∪ (blockHashes.map convert).toFinset
  | .blockRemoved blockHashes _ => held \ (blockHashes.map convert).toFinset
  | .allBlocksCleared => ∅

def replay (convert : List Digest → External) (held : Finset External)
    (events : List (KVCacheEvent Digest)) : Finset External :=
  events.foldl (replayEvent convert) held

/-- The pool with a consumer of its events. -/
structure Watched (Digest External : Type) where
  pool : Pool Digest
  held : Finset External

def Watched.drain (convert : List Digest → External) (watched : Watched Digest External) :
    Watched Digest External :=
  ⟨(takeEvents watched.pool).2, replay convert watched.held (takeEvents watched.pool).1⟩

/-- No block outside the list is cached under the hash of a block of the list. -/
def LastOfTheirHash (convert : List Digest → External) (pool : Pool Digest)
    (evicted : List BlockId) : Prop :=
  ∀ block ∈ evicted, ∀ key, (pool.blocks block).blockHash = some key →
    ∀ other otherKey, (pool.blocks other).blockHash = some otherKey →
      convert otherKey.1 = convert key.1 → other ∈ evicted

section
variable [DecidableEq Digest]

/-- The calls on a pool with one KV cache group. `admits` constrains the blocks that
a call evicts: those at the front of the free queue, or those that it names. -/
inductive WatchStep (convert : List Digest → External) (groupId : Nat)
    (admits : Pool Digest → List BlockId → Prop) :
    Watched Digest External → Watched Digest External → Prop where
  | cacheFullBlocks {pool pool' : Pool Digest} {held : Finset External} (request : Request Digest)
      (blocks : List BlockId) (numCachedBlocks numFullBlocks blockSize : Nat)
      (valid : ∀ block ∈ blocks, block < pool.numGpuBlocks)
      (result : pool.cacheFullBlocks request blocks numCachedBlocks numFullBlocks blockSize groupId =
        some pool') :
      WatchStep convert groupId admits ⟨pool, held⟩ ⟨pool', held⟩
  | getNewBlocks {pool pool' : Pool Digest} {held : Finset External} (numBlocks : Int)
      (blocks : List BlockId)
      (admitted : pool.enableCaching = true → ∀ front queue,
        pool.freeBlockQueue.popleftN numBlocks = some (front, queue) → admits pool front)
      (result : pool.getNewBlocks numBlocks = some (blocks, pool')) :
      WatchStep convert groupId admits ⟨pool, held⟩ ⟨pool', held⟩
  | touch {pool pool' : Pool Digest} {held : Finset External} (blocks : List BlockId)
      (result : pool.touch blocks = some pool') :
      WatchStep convert groupId admits ⟨pool, held⟩ ⟨pool', held⟩
  | freeBlocks {pool pool' : Pool Digest} {held : Finset External} (blocks : List BlockId)
      (result : pool.freeBlocks blocks = some pool') :
      WatchStep convert groupId admits ⟨pool, held⟩ ⟨pool', held⟩
  | evictBlocks {pool pool' : Pool Digest} {held : Finset External} (blockIds : List BlockId)
      (admitted : admits pool blockIds) (result : pool.evictBlocks blockIds = some pool') :
      WatchStep convert groupId admits ⟨pool, held⟩ ⟨pool', held⟩
  | resetPrefixCache {pool : Pool Digest} {held : Finset External} :
      WatchStep convert groupId admits ⟨pool, held⟩ ⟨pool.resetPrefixCache.2, held⟩
  | drain {watched : Watched Digest External} :
      WatchStep convert groupId admits watched (watched.drain convert)

end

/-- The consumer holds the hashes of the keys of `cached_block_hash_to_block`. -/
def Mirrors (convert : List Digest → External) (watched : Watched Digest External) : Prop :=
  ∀ hash, hash ∈ watched.held ↔
    ∃ key, watched.pool.cachedBlockHashToBlock key ≠ none ∧ convert key.1 = hash

/-! The hashes that are cached, as the blocks carry them. -/

def Cached (convert : List Digest → External) (pool : Pool Digest) (hash : External) : Prop :=
  ∃ block key, (pool.blocks block).blockHash = some key ∧ convert key.1 = hash

variable (convert : List Digest → External) (pool : Pool Digest)

omit [DecidableEq External] in
theorem cached_iff_key (hashed : Hashed pool) (hash : External) :
    Cached convert pool hash ↔
      ∃ key, pool.cachedBlockHashToBlock key ≠ none ∧ convert key.1 = hash := by
  constructor
  · rintro ⟨block, key, given, same⟩
    have member := (hashed.mem block key).mp given
    refine ⟨key, ?_, same⟩
    intro absent
    simp [absent, members] at member
  · rintro ⟨key, present, same⟩
    obtain ⟨entry, found⟩ := Option.ne_none_iff_exists'.mp present
    cases entry with
    | single block =>
      refine ⟨block, key, (hashed.mem block key).mpr ?_, same⟩
      simp [found, members]
    | several blocks =>
      obtain ⟨block, rest, shape⟩ := exists_cons_of_ne_nil (hashed.several key blocks found).1
      refine ⟨block, key, (hashed.mem block key).mpr ?_, same⟩
      simp [found, members, shape]

/-- What the consumer will hold once it has replayed the events that are queued. -/
def pending (convert : List Digest → External) (held : Finset External) (pool : Pool Digest) :
    Finset External :=
  replay convert held pool.kvEventQueue

structure Followed (convert : List Digest → External) (watched : Watched Digest External) : Prop where
  hashed : Hashed watched.pool
  enabled : watched.pool.enableKvCacheEvents = true
  events : ∀ hash, hash ∈ pending convert watched.held watched.pool ↔
    Cached convert watched.pool hash

theorem drain_mirrors (watched : Watched Digest External) (followed : Followed convert watched) :
    Mirrors convert (watched.drain convert) := by
  intro hash
  simp only [Watched.drain, takeEvents, followed.enabled, if_true]
  rw [← cached_iff_key convert watched.pool followed.hashed hash]
  exact followed.events hash

theorem drain_followed (watched : Watched Digest External) (followed : Followed convert watched) :
    Followed convert (watched.drain convert) := by
  simp only [Watched.drain, takeEvents, followed.enabled, if_true]
  refine ⟨?_, rfl, followed.events⟩
  exact hashed_frame watched.pool _ followed.hashed (fun _ => rfl) rfl ⟨rfl, rfl, rfl, rfl⟩

/-! Calls that leave hashes and events alone. -/

structure Quiet (pool pool' : Pool Digest) : Prop where
  hashes : SameHashes pool pool'
  events : pool'.kvEventQueue = pool.kvEventQueue
  enabled : pool'.enableKvCacheEvents = pool.enableKvCacheEvents

theorem Quiet.refl : Quiet pool pool := ⟨SameHashes.refl pool, rfl, rfl⟩

theorem Quiet.trans {first second third : Pool Digest} (one : Quiet first second)
    (two : Quiet second third) : Quiet first third :=
  ⟨one.hashes.trans two.hashes, two.events.trans one.events, two.enabled.trans one.enabled⟩

theorem addRef_quiet (block : BlockId) (amount : Int) :
    Quiet pool (pool.addRef block amount) := ⟨addRef_sameHashes pool block amount, rfl, rfl⟩

theorem queue_quiet {queue : FreeQueue} : Quiet pool { pool with freeBlockQueue := queue } :=
  ⟨⟨⟨rfl, rfl, rfl, rfl⟩, fun _ => rfl, rfl⟩, rfl, rfl⟩

variable (pool' : Pool Digest)

theorem touch_quiet (blocks : List BlockId) (result : pool.touch blocks = some pool') :
    Quiet pool pool' := by
  induction blocks generalizing pool with
  | nil =>
    rw [Pool.touch, Option.some.injEq] at result
    rw [result]
    exact Quiet.refl pool'
  | cons block rest ih =>
    rw [Pool.touch] at result
    split at result
    · split at result
      · contradiction
      · rename_i queue removed
        exact ((queue_quiet pool).trans (addRef_quiet _ block 1)).trans (ih _ result)
    · exact (addRef_quiet pool block 1).trans (ih _ result)

theorem freeBlocks_quiet {blocks : List BlockId} (result : pool.freeBlocks blocks = some pool') :
    Quiet pool pool' := by
  have dropped : ∀ (blocks : List BlockId) (pool : Pool Digest),
      Quiet pool (blocks.foldl (fun pool block => pool.addRef block (-1)) pool) := by
    intro blocks
    induction blocks with
    | nil => exact Quiet.refl
    | cons block rest ih =>
      intro pool
      exact (addRef_quiet pool block (-1)).trans (ih _)
  obtain ⟨queue, _, same⟩ := Option.map_eq_some_iff.mp result
  rw [← same]
  exact (dropped blocks pool).trans (queue_quiet _)

theorem quiet_followed (held : Finset External) (quiet : Quiet pool pool')
    (followed : Followed convert ⟨pool, held⟩) :
    Followed convert ⟨pool', held⟩ := by
  refine ⟨quiet.hashes.hashed followed.hashed, quiet.enabled.trans followed.enabled, ?_⟩
  intro hash
  simp only [pending, Cached, quiet.events, quiet.hashes.hashes]
  exact followed.events hash

section
variable [DecidableEq Digest]

/-! Calls that cache blocks. -/

omit [DecidableEq External] in
theorem cacheLoop_cached (convert : List Digest → External) (groupId : Nat)
    (pool pool' : Pool Digest) (blocks : List BlockId) (hashes newHashes : List (List Digest))
    (result : pool.cacheLoop groupId blocks hashes = some (pool', newHashes)) :
    pool'.kvEventQueue = pool.kvEventQueue ∧ pool'.enableKvCacheEvents = pool.enableKvCacheEvents ∧
      ∀ hash, Cached convert pool' hash ↔ Cached convert pool hash ∨ hash ∈ newHashes.map convert := by
  induction blocks generalizing pool hashes newHashes with
  | nil =>
    obtain ⟨rfl, rfl⟩ := result
    simp
  | cons block rest ih =>
    simp only [Pool.cacheLoop] at result
    split at result
    · exact ih pool hashes.tail newHashes result
    · split at result
      · rename_i first laterHashes bare
        obtain ⟨⟨final, tailHashes⟩, tail, same⟩ := Option.map_eq_some_iff.mp result
        obtain ⟨rfl, rfl⟩ := same
        obtain ⟨events, enabled, cached⟩ := ih _ _ _ tail
        refine ⟨events, enabled, fun hash => ?_⟩
        rw [cached hash, map_cons, mem_cons, ← or_assoc]
        apply or_congr_left
        -- The block had no hash, so the loop adds one and takes none away.
        constructor
        · rintro ⟨other, key, given, same⟩
          rw [setHash_blockHash] at given
          split at given
          · right
            rw [← same, ← Option.some.inj given]
          · exact Or.inl ⟨other, key, given, same⟩
        · rintro (⟨other, key, given, same⟩ | rfl)
          · refine ⟨other, key, ?_, same⟩
            rw [setHash_blockHash, if_neg, given]
            rintro rfl
            simp [bare] at given
          · refine ⟨block, (first, groupId), ?_, rfl⟩
            rw [setHash_blockHash, if_pos rfl]
      · contradiction

omit [DecidableEq Digest] in
theorem blockStored_replay (convert : List Digest → External) (held : Finset External)
    {pool : Pool Digest} {request : Request Digest} {blocks : List BlockId}
    {newHashes hashes : List (List Digest)} {numCachedBlocks numFullBlocks blockSize : Nat}
    {event : KVCacheEvent Digest}
    (stored : pool.blockStored request blocks newHashes hashes numCachedBlocks numFullBlocks
      blockSize = some event) :
    replayEvent convert held event = held ∪ (newHashes.map convert).toFinset := by
  unfold Pool.blockStored at stored
  split at stored
  · contradiction
  · rw [← Option.some.inj stored]
    rfl

theorem cacheFullBlocks_followed {convert : List Digest → External} {groupId : Nat}
    {pool pool' : Pool Digest} (held : Finset External) {request : Request Digest}
    {blocks : List BlockId} {numCachedBlocks numFullBlocks blockSize : Nat}
    (valid : ∀ block ∈ blocks, block < pool.numGpuBlocks)
    (result : pool.cacheFullBlocks request blocks numCachedBlocks numFullBlocks blockSize groupId =
      some pool')
    (followed : Followed convert ⟨pool, held⟩) : Followed convert ⟨pool', held⟩ := by
  have hashed := (cacheFullBlocks_hashed blocks followed.hashed (fun block member => Or.inr (valid block member)) result).1
  unfold Pool.cacheFullBlocks at result
  simp only at result
  split at result
  · rwa [← Option.some.inj result]
  · split at result
    · contradiction
    · split at result
      · contradiction
      · split at result
        · contradiction
        · rename_i now newHashes looped
          obtain ⟨events, enabled, cached⟩ := cacheLoop_cached convert groupId pool now _ _ newHashes
            looped
          have enabledNow : now.enableKvCacheEvents = true := enabled.trans followed.enabled
          rw [if_pos followed.enabled] at result
          obtain ⟨event, stored, rfl⟩ := Option.map_eq_some_iff.mp result
          have added := blockStored_replay convert (pending convert held pool) stored
          have outcome : now.addEvent event =
              { now with kvEventQueue := now.kvEventQueue ++ [event] } := by
            rw [Pool.addEvent, if_pos enabledNow]
          rw [outcome] at hashed ⊢
          refine ⟨hashed, enabledNow, fun hash => ?_⟩
          have replayed : pending convert held
              { now with kvEventQueue := now.kvEventQueue ++ [event] } =
                pending convert held pool ∪ (newHashes.map convert).toFinset := by
            rw [← added, pending, replay, events, foldl_append]
            rfl
          rw [replayed, Finset.mem_union, followed.events hash, mem_toFinset]
          exact (cached hash).symm

/-! Calls that evict blocks. -/

structure Removed (convert : List Digest → External) (pool pool' : Pool Digest)
    (evicted : List BlockId) : Prop where
  hashed : Hashed pool'
  enabled : pool'.enableKvCacheEvents = true
  hashes : ∀ block, (pool'.blocks block).blockHash =
    if block ∈ evicted then none else (pool.blocks block).blockHash
  events : ∀ held hash, hash ∈ pending convert held pool' ↔ hash ∈ pending convert held pool ∧
    ∀ block ∈ evicted, ∀ key, (pool.blocks block).blockHash = some key → convert key.1 ≠ hash

omit [DecidableEq Digest] in
theorem removed_of_quiet (convert : List Digest → External) {pool pool' : Pool Digest}
    (quiet : Quiet pool pool') (hashed : Hashed pool) (enabled : pool.enableKvCacheEvents = true) :
    Removed convert pool pool' [] := by
  refine ⟨quiet.hashes.hashed hashed, quiet.enabled.trans enabled, ?_, ?_⟩
  · intro block
    simp [quiet.hashes.hashes block]
  · simp [pending, quiet.events]

omit [DecidableEq Digest] in
theorem Removed.trans {convert : List Digest → External} {first second third : Pool Digest}
    {front rest : List BlockId} (one : Removed convert first second front)
    (two : Removed convert second third rest) : Removed convert first third (front ++ rest) := by
  refine ⟨two.hashed, two.enabled, ?_, ?_⟩
  · intro block
    rw [two.hashes block, one.hashes block]
    by_cases gone : block ∈ front
    · simp [gone]
    · simp [gone]
  · intro held hash
    rw [two.events held hash, one.events held hash, and_assoc]
    apply and_congr_right'
    constructor
    · rintro ⟨fromFront, fromRest⟩ block member key given
      by_cases gone : block ∈ front
      · exact fromFront block gone key given
      · have later := (mem_append.mp member).resolve_left gone
        apply fromRest block later key
        rw [one.hashes block, if_neg gone, given]
    · intro removed
      constructor
      · intro block member key given
        exact removed block (mem_append_left _ member) key given
      · intro block member key given
        rw [one.hashes block] at given
        split at given
        · contradiction
        · exact removed block (mem_append_right _ member) key given

theorem maybeEvict_removed (convert : List Digest → External) (pool : Pool Digest) (block : BlockId)
    (hashed : Hashed pool) (enabled : pool.enableKvCacheEvents = true) :
    Removed convert pool (pool.maybeEvictCachedBlock block).2 [block] := by
  have evicted := maybeEvict_evicted pool block hashed
  refine ⟨evicted.hashed, ?_, ?_, ?_⟩
  · unfold Pool.maybeEvictCachedBlock
    split
    · exact enabled
    · split
      · exact enabled
      · unfold Pool.addEvent
        split
        all_goals exact enabled
  · intro other
    simp [evicted.hashes other]
  · intro held hash
    cases given : (pool.blocks block).blockHash with
    | none => simp [Pool.maybeEvictCachedBlock, given]
    | some key =>
      have found := pop_members pool.cachedBlockHashToBlock key block
        ((hashed.mem block key).mp given)
      cases popped : BlockHashToBlockMap.pop pool.cachedBlockHashToBlock key block with
      | mk present cache =>
        rw [popped] at found
        cases found
        have queued : (pool.maybeEvictCachedBlock block).2.kvEventQueue =
            pool.kvEventQueue ++ [.blockRemoved [key.1] mediumGpu] := by
          simp [Pool.maybeEvictCachedBlock, given, popped, Pool.addEvent, Pool.setHash, enabled]
        simp only [pending, replay, queued, foldl_append, foldl_cons, foldl_nil,
          replayEvent, Finset.mem_sdiff, mem_toFinset]
        apply and_congr_right'
        constructor
        · intro other evicted member evictedKey evictedGiven same
          rw [mem_singleton.mp member, given, Option.some.injEq] at evictedGiven
          apply other
          simp [evictedGiven, same]
        · intro removed member
          simp only [map_cons, map_nil, mem_singleton] at member
          exact removed block (mem_singleton_self block) key given member.symm

omit [DecidableEq Digest] in
/-- Evictions keep the consumer in step exactly when they leave no other block under
a hash they take away. -/
theorem removed_followed_iff {convert : List Digest → External} {pool pool' : Pool Digest}
    {held : Finset External} {evicted : List BlockId} (removed : Removed convert pool pool' evicted)
    (followed : Followed convert ⟨pool, held⟩) :
    Followed convert ⟨pool', held⟩ ↔ LastOfTheirHash convert pool evicted := by
  have left (hash : External) : Cached convert pool' hash ↔ ∃ block key, block ∉ evicted ∧
      (pool.blocks block).blockHash = some key ∧ convert key.1 = hash := by
    apply exists_congr
    intro block
    rw [removed.hashes block]
    by_cases gone : block ∈ evicted
    · simp [gone]
    · simp [gone]
  constructor
  · intro after block member key given other otherKey otherGiven same
    by_contra kept
    have still : Cached convert pool' (convert key.1) :=
      (left _).mpr ⟨other, otherKey, kept, otherGiven, same⟩
    have dropped := ((removed.events held _).mp ((after.events _).mpr still)).2
    exact dropped block member key given rfl
  · intro last
    refine ⟨removed.hashed, removed.enabled, fun hash => ?_⟩
    rw [removed.events held hash, left hash, followed.events hash]
    constructor
    · rintro ⟨⟨block, key, given, same⟩, kept⟩
      exact ⟨block, key, fun member => kept block member key given same, given, same⟩
    · rintro ⟨block, key, kept, given, same⟩
      refine ⟨⟨block, key, given, same⟩, ?_⟩
      intro gone member goneKey goneGiven goneSame
      exact kept (last gone member goneKey goneGiven block key given (same.trans goneSame.symm))

theorem evictBlocks_removed (convert : List Digest → External) (pool pool' : Pool Digest)
    (blockIds : List BlockId) (hashed : Hashed pool) (enabled : pool.enableKvCacheEvents = true)
    (result : pool.evictBlocks blockIds = some pool') : Removed convert pool pool' blockIds := by
  induction blockIds generalizing pool with
  | nil =>
    rw [Pool.evictBlocks, Option.some.injEq] at result
    rw [result]
    exact removed_of_quiet convert (Quiet.refl pool') (result ▸ hashed) (result ▸ enabled)
  | cons block rest ih =>
    rw [Pool.evictBlocks] at result
    split at result
    · have first := maybeEvict_removed convert pool block hashed enabled
      exact first.trans (ih _ first.hashed first.enabled result)
    · contradiction

/-- The blocks that `get_new_blocks` evicts: with caching all that it pops. -/
theorem takeLoop_removed (convert : List Digest → External) (pool pool' : Pool Digest)
    (blocks : List BlockId) (hashed : Hashed pool) (enabled : pool.enableKvCacheEvents = true)
    (result : pool.takeLoop blocks = some pool') :
    Removed convert pool pool' (if pool.enableCaching then blocks else []) := by
  induction blocks generalizing pool with
  | nil =>
    rw [Pool.takeLoop, Option.some.injEq] at result
    rw [result, ite_self]
    exact removed_of_quiet convert (Quiet.refl pool') (result ▸ hashed) (result ▸ enabled)
  | cons block rest ih =>
    by_cases caching : pool.enableCaching = true
    · simp only [Pool.takeLoop, caching, if_true] at result ⊢
      split at result
      · have first := maybeEvict_removed convert pool block hashed enabled
        have counted := removed_of_quiet convert
          (addRef_quiet (pool.maybeEvictCachedBlock block).2 block 1) first.hashed first.enabled
        have here := first.trans counted
        have tail := ih _ here.hashed here.enabled result
        have shape : ((pool.maybeEvictCachedBlock block).2.addRef block 1).enableCaching = true :=
          (maybeEvict_evicted pool block hashed).shape.enableCaching.trans caching
        rw [if_pos shape] at tail
        exact here.trans tail
      · contradiction
    · simp only [Pool.takeLoop, if_neg caching] at result ⊢
      split at result
      · have counted := removed_of_quiet convert (addRef_quiet pool block 1) hashed enabled
        have tail := ih _ counted.hashed counted.enabled result
        have shape : ¬ (pool.addRef block 1).enableCaching = true := caching
        rw [if_neg shape] at tail
        exact counted.trans tail
      · contradiction

theorem getNewBlocks_followed {convert : List Digest → External} {pool pool' : Pool Digest}
    (held : Finset External) {numBlocks : Int} {blocks : List BlockId}
    (admitted : pool.enableCaching = true → ∀ front queue,
      pool.freeBlockQueue.popleftN numBlocks = some (front, queue) →
        LastOfTheirHash convert pool front)
    (result : pool.getNewBlocks numBlocks = some (blocks, pool'))
    (followed : Followed convert ⟨pool, held⟩) : Followed convert ⟨pool', held⟩ := by
  unfold Pool.getNewBlocks at result
  split at result
  · contradiction
  · split at result
    · contradiction
    · rename_i front queue popped
      obtain ⟨taken, looped, same⟩ := Option.map_eq_some_iff.mp result
      simp only [Prod.mk.injEq] at same
      obtain ⟨rfl, rfl⟩ := same
      let linked : Pool Digest := { pool with freeBlockQueue := queue }
      have before : Followed convert ⟨linked, held⟩ :=
        quiet_followed convert pool linked held (queue_quiet pool) followed
      have removed := takeLoop_removed convert linked taken front before.hashed before.enabled looped
      apply (removed_followed_iff removed before).mpr
      by_cases caching : pool.enableCaching = true
      · have shape : linked.enableCaching = true := caching
        rw [if_pos shape]
        exact admitted caching front queue popped
      · have shape : ¬ linked.enableCaching = true := caching
        rw [if_neg shape]
        intro block member
        contradiction

/-! Runs. -/

omit [DecidableEq Digest] in
theorem resetPrefixCache_followed (convert : List Digest → External) (pool : Pool Digest)
    (held : Finset External) (followed : Followed convert ⟨pool, held⟩) :
    Followed convert ⟨pool.resetPrefixCache.2, held⟩ := by
  have hashed := (resetPrefixCache_hashed followed.hashed).1
  unfold Pool.resetPrefixCache at hashed ⊢
  split at hashed
  · rename_i used
    rwa [if_pos used]
  · rename_i unused
    have enabled : pool.enableKvCacheEvents = true := followed.enabled
    rw [if_neg unused]
    refine ⟨hashed, ?_, fun hash => ?_⟩
    · simp [Pool.addEvent, enabled]
    · simp [pending, replay, Cached, Pool.addEvent, enabled, replayEvent]

/-- Calls that evict only blocks that are the last of their hash keep the consumer in step. -/
theorem step_followed (convert : List Digest → External) (groupId : Nat)
    (watched watched' : Watched Digest External)
    (step : WatchStep convert groupId (LastOfTheirHash convert) watched watched')
    (followed : Followed convert watched) : Followed convert watched' := by
  cases step with
  | cacheFullBlocks request blocks numCachedBlocks numFullBlocks blockSize valid result =>
    exact cacheFullBlocks_followed _ valid result followed
  | getNewBlocks numBlocks blocks admitted result =>
    exact getNewBlocks_followed _ admitted result followed
  | touch blocks result => exact quiet_followed convert _ _ _ (touch_quiet _ _ blocks result) followed
  | freeBlocks blocks result =>
    exact quiet_followed convert _ _ _ (freeBlocks_quiet _ _ result) followed
  | evictBlocks blockIds admitted result =>
    have removed := evictBlocks_removed convert _ _ blockIds followed.hashed followed.enabled result
    exact (removed_followed_iff removed followed).mpr admitted
  | resetPrefixCache => exact resetPrefixCache_followed convert _ _ followed
  | drain => exact drain_followed convert watched followed

omit [DecidableEq Digest] in
theorem init_followed (convert : List Digest → External) (numGpuBlocks hashBlockSize : Nat)
    (enableCaching : Bool) (pool : Pool Digest)
    (made : Pool.init numGpuBlocks enableCaching hashBlockSize true = some pool) :
    Followed convert ⟨pool, ∅⟩ := by
  have hashed := (init_counted numGpuBlocks hashBlockSize enableCaching true pool made).1
  obtain ⟨popped, _, rfl⟩ := Option.map_eq_some_iff.mp made
  refine ⟨hashed, rfl, fun hash => ?_⟩
  simp [pending, replay, Cached]

/-- In every run whose evictions take only the last blocks of their hashes, the
consumer holds after each drain exactly the hashes that are keys of the cache. -/
theorem run_mirrors (convert : List Digest → External) (groupId numGpuBlocks hashBlockSize : Nat)
    (enableCaching : Bool) (pool : Pool Digest) (watched : Watched Digest External)
    (made : Pool.init numGpuBlocks enableCaching hashBlockSize true = some pool)
    (run : Relation.ReflTransGen (WatchStep convert groupId (LastOfTheirHash convert)) ⟨pool, ∅⟩
      watched) : Mirrors convert (watched.drain convert) := by
  have followed : Followed convert watched := by
    induction run with
    | refl => exact init_followed convert numGpuBlocks hashBlockSize enableCaching pool made
    | tail _ step ih => exact step_followed convert groupId _ _ step ih
  exact drain_mirrors convert watched followed

end

/-! Two requests with one and the same full block. -/

def sameHashArgs : RequestArgs Nat where
  requestId := 0
  promptTokenIds := some [1, 2]
  samplingParams := some ⟨4, 0, none, [], none, none⟩
  poolingParams := none
  clientIndex := 0
  arrivalTime := 0
  promptEmbeds := none
  mmFeatures := []
  loraRequest := none
  cacheSalt := none
  priority := 0
  structuredOutput := false
  blockHasher := some ⟨2, fun _ => 7, 0⟩
  resumable := false

def sameHashRequest : Request Nat := (Request.init sameHashArgs).get rfl

def startedPool : Pool Nat := (Pool.init 4 true 2 true).get rfl

def takenPool : Pool Nat := ((startedPool.getNewBlocks 2).get rfl).2

def cachedOnce : Pool Nat := (takenPool.cacheFullBlocks sameHashRequest [1] 0 1 2 0).get rfl

/-- The other request has computed the block on its own. -/
def cachedTwice : Pool Nat := (cachedOnce.cacheFullBlocks sameHashRequest [2] 0 1 2 0).get rfl

def freedOne : Pool Nat := (cachedTwice.freeBlocks [1]).get rfl

/-- The block of the first request is handed out again. -/
def evictedOne : Pool Nat := ((freedOne.getNewBlocks 2).get rfl).2

def evictedLast : Pool Nat := (cachedOnce.evictBlocks [1]).get rfl

abbrev NatWatched := Watched Nat (List Nat)

theorem started_unhashed (convert : List Nat → List Nat) (blocks : List BlockId) :
    LastOfTheirHash convert startedPool blocks := by
  intro block member key given
  contradiction

theorem cachedOnce_hash (block : BlockId) (key : HashKey Nat)
    (given : (cachedOnce.blocks block).blockHash = some key) : block = 1 := by
  by_contra other
  have bare : (takenPool.blocks block).blockHash = none := by
    let popped : Pool Nat := { startedPool with freeBlockQueue := takenPool.freeBlockQueue }
    change (((popped.addRef 1 1).addRef 2 1).blocks block).blockHash = none
    rw [addRef_blockHash, addRef_blockHash]
    rfl
  have kept : (cachedOnce.blocks block).blockHash = (takenPool.blocks block).blockHash := by
    change ((takenPool.setHash 1 (some ([7], 0))).blocks block).blockHash = _
    rw [setHash_blockHash, if_neg other]
  rw [kept, bare] at given
  contradiction

theorem evictedLast_mirrors :
    Mirrors (id : List Nat → List Nat) (Watched.drain id ⟨evictedLast, ∅⟩) := by
  have taken : WatchStep (id : List Nat → List Nat) 0 (LastOfTheirHash id) ⟨startedPool, ∅⟩
      ⟨takenPool, ∅⟩ := .getNewBlocks 2 [1, 2] (fun _ front _ _ => started_unhashed id front) rfl
  have cached : WatchStep (id : List Nat → List Nat) 0 (LastOfTheirHash id) ⟨takenPool, ∅⟩
      ⟨cachedOnce, ∅⟩ := .cacheFullBlocks sameHashRequest [1] 0 1 2 (by decide) rfl
  have evicted : WatchStep (id : List Nat → List Nat) 0 (LastOfTheirHash id) ⟨cachedOnce, ∅⟩
      ⟨evictedLast, ∅⟩ := by
    refine .evictBlocks [1] ?_ rfl
    intro block _ key _ other otherKey otherGiven _
    simp [cachedOnce_hash other otherKey otherGiven]
  exact run_mirrors id 0 4 2 true startedPool ⟨evictedLast, ∅⟩ rfl
    (((Relation.ReflTransGen.single taken).tail cached).tail evicted)

/-- The hash of the evicted block is gone from the consumer, and block 2 is still
cached under it. -/
theorem evictedOne_not_mirrors :
    ¬ ∀ watched : NatWatched,
      Relation.ReflTransGen (WatchStep id 0 fun _ _ => True) ⟨startedPool, ∅⟩ watched →
        Mirrors id (watched.drain id) := by
  intro mirrors
  have taken : WatchStep (id : List Nat → List Nat) 0 (fun _ _ => True) ⟨startedPool, ∅⟩
      ⟨takenPool, ∅⟩ := .getNewBlocks 2 [1, 2] (fun _ _ _ _ => trivial) rfl
  have once : WatchStep (id : List Nat → List Nat) 0 (fun _ _ => True) ⟨takenPool, ∅⟩
      ⟨cachedOnce, ∅⟩ := .cacheFullBlocks sameHashRequest [1] 0 1 2 (by decide) rfl
  have twice : WatchStep (id : List Nat → List Nat) 0 (fun _ _ => True) ⟨cachedOnce, ∅⟩
      ⟨cachedTwice, ∅⟩ := .cacheFullBlocks sameHashRequest [2] 0 1 2 (by decide) rfl
  have freed : WatchStep (id : List Nat → List Nat) 0 (fun _ _ => True) ⟨cachedTwice, ∅⟩
      ⟨freedOne, ∅⟩ := .freeBlocks [1] rfl
  have evicted : WatchStep (id : List Nat → List Nat) 0 (fun _ _ => True) ⟨freedOne, ∅⟩
      ⟨evictedOne, ∅⟩ := .getNewBlocks 2 [3, 1] (fun _ _ _ _ => trivial) rfl
  have mirrored := mirrors ⟨evictedOne, ∅⟩
    (((((Relation.ReflTransGen.single taken).tail once).tail twice).tail freed).tail evicted) [7]
  have held : ([7] : List Nat) ∈ (Watched.drain (id : List Nat → List Nat) ⟨evictedOne, ∅⟩).held := by
    rw [mirrored]
    refine ⟨([7], 0), ?_, rfl⟩
    intro absent
    have present : (BlockHashToBlockMap.getOneBlock
      (Watched.drain (id : List Nat → List Nat) ⟨evictedOne, ∅⟩).pool.cachedBlockHashToBlock
        ([7], 0)) = some 2 := by decide
    simp [BlockHashToBlockMap.getOneBlock, absent] at present
  revert held
  decide

end VllmDcu.KVEvents

import VllmDcu.PoolInvariant
import Mathlib.Algebra.Order.BigOperators.Group.List
import Mathlib.Algebra.Order.Ring.Nat

/-! Resetting the prefix cache. The pool counts the blocks that are not free; the
accounts make one of them, the null block, mean that no request holds a block. A
sink group takes its blocks out of the queue without a reference, so with one the
count is never met. -/
namespace VllmDcu.PrefixReset
open Requests FreeBlockQueue BlockPool KVCacheInterface SingleTypeManager CacheManager
open PoolCache PoolAccounts TableAccounts PoolInvariant List Option Dict

variable {Digest : Type}

/-- No table holds a block. -/
def Idle (manager : KVCacheManager Digest) : Prop :=
  ∀ single ∈ manager.coordinator.singleTypeManagers, ∀ requestId,
    ∀ block ∈ single.blocksOf requestId, block = manager.coordinator.blockPool.nullBlock

/-- A block is in the prefix cache under a key. -/
def Cached (manager : KVCacheManager Digest) (key : HashKey Digest) (block : BlockId) : Prop :=
  block ∈ members (manager.coordinator.blockPool.cachedBlockHashToBlock key)

section
variable [DecidableEq Digest]

abbrev Run : KVCacheManager Digest → KVCacheManager Digest → Prop := Relation.ReflTransGen Step

/-- A step between two managers puts a block in the cache that was not there under its key. -/
def CachedSince (first later : KVCacheManager Digest) (key : HashKey Digest) (block : BlockId) :
    Prop :=
  ∃ before after, Run first before ∧ Step before after ∧ Run after later ∧
    ¬ Cached before key block ∧ Cached after key block

/-- What a reset promises in one state. -/
structure ResetSound (manager : KVCacheManager Digest) : Prop where
  succeeds : manager.resetPrefixCache.1 = true ↔ Idle manager
  forgets : manager.resetPrefixCache.1 = true → ∀ later, Run manager.resetPrefixCache.2 later →
    ∀ blockHash kvCacheGroupIds blocks,
      later.coordinator.blockPool.getCachedBlock blockHash kvCacheGroupIds = some blocks →
        ∀ block ∈ blocks, ∃ groupId ∈ kvCacheGroupIds,
          CachedSince manager.resetPrefixCache.2 later (blockHash, groupId) block
  keeps : manager.resetPrefixCache.1 = false → manager.resetPrefixCache.2 = manager

/-! After a reset. -/

omit [DecidableEq Digest] in
theorem resetPrefixCache_true_iff (pool : Pool Digest) :
    pool.resetPrefixCache.1 = true ↔ pool.getNumFreeBlocks + 1 = pool.numGpuBlocks := by
  unfold Pool.resetPrefixCache
  split
  · constructor
    · intro impossible
      contradiction
    · omega
  · constructor
    · omega
    · exact fun _ => rfl

omit [DecidableEq Digest] in
theorem resetPrefixCache_empty {manager : KVCacheManager Digest}
    (reset : manager.resetPrefixCache.1 = true) {key : HashKey Digest} {block : BlockId} :
    ¬ Cached manager.resetPrefixCache.2 key block := by
  have poolReset : manager.coordinator.blockPool.resetPrefixCache.1 = true := reset
  change block ∉ members (manager.coordinator.blockPool.resetPrefixCache.2.cachedBlockHashToBlock key)
  unfold Pool.resetPrefixCache at poolReset ⊢
  split
  · rename_i used
    rw [if_pos used] at poolReset
    contradiction
  · rw [(addEvent_sameHashes _ _).cache]
    exact not_mem_nil

omit [DecidableEq Digest] in
theorem resetPrefixCache_keeps (manager : KVCacheManager Digest)
    (failed : manager.resetPrefixCache.1 = false) : manager.resetPrefixCache.2 = manager := by
  have poolFailed : manager.coordinator.blockPool.resetPrefixCache.1 = false := failed
  have same : manager.coordinator.blockPool.resetPrefixCache.2 = manager.coordinator.blockPool := by
    unfold Pool.resetPrefixCache at poolFailed ⊢
    split
    · rfl
    · rename_i free
      rw [if_neg free] at poolFailed
      contradiction
  unfold KVCacheManager.resetPrefixCache
  simp only [same]

/-- What is cached at the end of a run was cached at its start or by one of its steps. -/
theorem cached_run (first later : KVCacheManager Digest) (key : HashKey Digest) (block : BlockId)
    (run : Run first later) (start : ¬ Cached first key block) (cached : Cached later key block) :
    CachedSince first later key block := by
  induction run with
  | refl => exact absurd cached start
  | tail reached step ih =>
    rename_i before after
    by_cases already : Cached before key block
    · obtain ⟨earlier, put, toEarlier, putStep, fromPut, fresh, putNow⟩ := ih already
      exact ⟨earlier, put, toEarlier, putStep, fromPut.tail step, fresh, putNow⟩
    · exact ⟨before, after, reached, step, Relation.ReflTransGen.refl, already, cached⟩

omit [DecidableEq Digest] in
theorem getOneBlock_members (cache : BlockHashToBlockMap Digest) (key : HashKey Digest)
    (block : BlockId) (found : BlockHashToBlockMap.getOneBlock cache key = some block) :
    block ∈ members (cache key) := by
  unfold BlockHashToBlockMap.getOneBlock at found
  split at found
  · contradiction
  · rename_i entry
    rw [entry]
    obtain rfl := some.inj found
    exact mem_cons_self
  · rename_i entry
    rw [entry]
    exact mem_of_head? found

omit [DecidableEq Digest] in
/-- A hit is a block that is cached under the hash and one of the groups. -/
theorem getCachedBlock_members (pool : Pool Digest) (blockHash : List Digest)
    (kvCacheGroupIds : List Nat) (blocks : List BlockId)
    (hit : pool.getCachedBlock blockHash kvCacheGroupIds = some blocks) :
    ∀ block ∈ blocks, ∃ groupId ∈ kvCacheGroupIds,
      block ∈ members (pool.cachedBlockHashToBlock (blockHash, groupId)) := by
  unfold Pool.getCachedBlock at hit
  induction kvCacheGroupIds generalizing blocks with
  | nil =>
    obtain rfl : [] = blocks := by simpa using hit
    simp
  | cons groupId rest ih =>
    simp only [mapM_cons, Option.pure_def, bind_eq_bind, bind_eq_some_iff, some.injEq] at hit
    obtain ⟨first, found, others, hits, rfl⟩ := hit
    intro block member
    rcases mem_cons.mp member with rfl | inOthers
    · exact ⟨groupId, mem_cons_self, getOneBlock_members _ _ _ found⟩
    · obtain ⟨other, inRest, cached⟩ := ih others hits block inOthers
      exact ⟨other, mem_cons_of_mem _ inRest, cached⟩

theorem reset_forgets (manager later : KVCacheManager Digest)
    (reset : manager.resetPrefixCache.1 = true) (run : Run manager.resetPrefixCache.2 later)
    (blockHash : List Digest) (kvCacheGroupIds : List Nat) (blocks : List BlockId)
    (hit : later.coordinator.blockPool.getCachedBlock blockHash kvCacheGroupIds = some blocks) :
    ∀ block ∈ blocks, ∃ groupId ∈ kvCacheGroupIds,
      CachedSince manager.resetPrefixCache.2 later (blockHash, groupId) block := by
  intro block member
  obtain ⟨groupId, asked, cached⟩ := getCachedBlock_members _ blockHash kvCacheGroupIds blocks hit
    block member
  exact ⟨groupId, asked, cached_run _ later _ block run (resetPrefixCache_empty reset) cached⟩

end

/-! Counting the blocks in use. -/

theorem references_eq_zero_iff (managers : List (Manager Digest)) (block : BlockId) :
    references managers block = 0 ↔
      ∀ single ∈ managers, ∀ requestId, block ∉ single.blocksOf requestId := by
  unfold references
  rw [sum_eq_zero_iff]
  constructor
  · intro none single member requestId listed
    have total := none _ (List.mem_map_of_mem (f := fun manager => occurrences manager block) member)
    have most := occurrences_le single requestId block
    have positive := count_pos_iff.mpr listed
    omega
  · intro absent count member
    obtain ⟨single, inside, rfl⟩ := List.mem_map.mp member
    apply total_eq_zero
    intro requestId
    rw [blocksOf_measure]
    exact count_eq_zero.mpr (absent single inside requestId)

/-- All blocks but the null block are free exactly when no block is referenced. -/
theorem free_all_iff {pool : Pool Digest} {refs : BlockId → Nat} (counted : Counted pool refs fun _ => False)
    (null : pool.nullBlock < pool.numGpuBlocks) :
    pool.getNumFreeBlocks + 1 = pool.numGpuBlocks ↔
      ∀ block, block ≠ pool.nullBlock → refs block = 0 := by
  obtain ⟨free, holds, mem⟩ := counted.queue
  have others := (nodup_range (n := pool.numGpuBlocks)).erase pool.nullBlock
  have size : ((range pool.numGpuBlocks).erase pool.nullBlock).length + 1 = pool.numGpuBlocks := by
    have some : 0 < pool.numGpuBlocks := Nat.lt_of_le_of_lt (Nat.zero_le _) null
    rw [length_erase_of_mem (mem_range.mpr null), length_range]
    omega
  have inOthers (block : BlockId) : block ∈ (range pool.numGpuBlocks).erase pool.nullBlock ↔
      block ≠ pool.nullBlock ∧ block < pool.numGpuBlocks := by
    rw [nodup_range.mem_erase_iff, mem_range]
  have inside : free ⊆ (range pool.numGpuBlocks).erase pool.nullBlock := by
    intro block member
    obtain ⟨within, real, -⟩ := (mem block).mp member
    exact (inOthers block).mpr ⟨real, within⟩
  have below := subperm_of_subset holds.represents.distinct inside
  rw [Pool.getNumFreeBlocks, holds.count]
  constructor
  · intro all block real
    by_contra used
    have within := counted.inside block real (Nat.pos_of_ne_zero used)
    have same := below.perm_of_length_le (by omega)
    have isFree := same.mem_iff.mpr ((inOthers block).mpr ⟨real, within⟩)
    exact used ((mem block).mp isFree).2.2.1
  · intro unused
    have back : (range pool.numGpuBlocks).erase pool.nullBlock ⊆ free := by
      intro block member
      obtain ⟨real, within⟩ := (inOthers block).mp member
      exact (mem block).mpr ⟨within, real, unused block real, id⟩
    have above := (subperm_of_subset others back).length_le
    have atMost := below.length_le
    omega

theorem settled_succeeds (manager : KVCacheManager Digest) (settled : Settled manager.coordinator)
    (null : manager.coordinator.blockPool.nullBlock < manager.coordinator.blockPool.numGpuBlocks) :
    manager.resetPrefixCache.1 = true ↔ Idle manager := by
  have counts := free_all_iff settled.balanced.counted null
  refine ((resetPrefixCache_true_iff manager.coordinator.blockPool).trans counts).trans ?_
  constructor
  · intro unused single member requestId block listed
    by_contra real
    exact (references_eq_zero_iff _ block).mp (unused block real) single member requestId listed
  · intro idle block real
    apply (references_eq_zero_iff _ block).mpr
    intro single member requestId listed
    exact real (idle single member requestId block listed)

/-! Starting. -/

theorem popleftN_fewer (queue queue' : FreeQueue) (n : Nat) (ids : List BlockId)
    (popped : queue.popleftN n = some (ids, queue')) :
    queue'.numFreeBlocks = queue.numFreeBlocks - n := by
  unfold FreeQueue.popleftN at popped
  split at popped
  · obtain ⟨-, rfl⟩ := Prod.mk.inj (some.inj popped)
    omega
  · split at popped
    · contradiction
    · obtain ⟨⟨ret, links, currBlock⟩, -, same⟩ := map_eq_some_iff.mp popped
      obtain ⟨-, rfl⟩ := Prod.mk.inj same
      rfl

/-- Whole blocks that hold some sink tokens are some blocks. -/
theorem sinkBlocks_pos (sinkLen blockSize : Nat)
    (valid : ¬ (sinkLen = 0 ∨ sinkLen % blockSize ≠ 0)) : 0 < sinkLen / blockSize := by
  rw [not_or, not_not] at valid
  obtain ⟨some, whole⟩ := valid
  obtain ⟨count, rfl⟩ := Nat.dvd_of_mod_eq_zero whole
  have positive := Nat.pos_of_ne_zero fun zero : blockSize = 0 => some (by rw [zero, Nat.zero_mul])
  rw [Nat.mul_div_cancel_left count positive]
  exact Nat.pos_of_ne_zero fun zero => some (by rw [zero, Nat.mul_zero])

/-- A new manager has no tables; only a sink takes blocks out of the queue. -/
theorem managerInit_takes (pool pool' : Pool Digest) (spec : KVCacheSpec) (enableCaching : Bool)
    (groupId dcpWorldSize pcpWorldSize : Nat) (manager : Manager Digest)
    (made : Manager.init pool spec enableCaching groupId dcpWorldSize pcpWorldSize =
      some (pool', manager)) :
    manager.reqToBlocks = Dict.empty ∧ SameShape pool pool' ∧
      pool'.getNumFreeBlocks ≤ pool.getNumFreeBlocks ∧
      ∀ sink, spec = .sinkFullAttention sink → pool'.getNumFreeBlocks < pool.getNumFreeBlocks := by
  unfold Manager.init at made
  simp only at made
  split at made
  · split at made
    · contradiction
    · split at made
      · contradiction
      · rename_i valid
        obtain ⟨⟨ids, queue⟩, popped, same⟩ := map_eq_some_iff.mp made
        obtain ⟨rfl, rfl⟩ := Prod.mk.inj same
        have fewer := popleftN_fewer _ queue _ ids popped
        have least := sinkBlocks_pos _ _ valid
        have less : queue.numFreeBlocks < pool.freeBlockQueue.numFreeBlocks := by
          omega
        exact ⟨rfl, ⟨rfl, rfl, rfl, rfl⟩, le_of_lt less, fun _ _ => less⟩
  · rename_i other
    obtain ⟨rfl, rfl⟩ := Prod.mk.inj (some.inj made)
    exact ⟨rfl, SameShape.refl pool, le_refl _, fun sink same => absurd same (other sink)⟩

theorem initManagers_takes (enableCaching : Bool) (dcpWorldSize pcpWorldSize : Nat)
    (specs : List KVCacheSpec) (groupId : Nat) (pool pool' : Pool Digest)
    (managers : List (Manager Digest))
    (made : Coordinator.initManagers enableCaching dcpWorldSize pcpWorldSize specs groupId pool =
      some (pool', managers)) :
    (∀ manager ∈ managers, manager.reqToBlocks = Dict.empty) ∧
      SameShape pool pool' ∧ pool'.getNumFreeBlocks ≤ pool.getNumFreeBlocks ∧
      ∀ sink, .sinkFullAttention sink ∈ specs → pool'.getNumFreeBlocks < pool.getNumFreeBlocks := by
  induction specs generalizing groupId pool managers with
  | nil =>
    obtain ⟨rfl, rfl⟩ : pool = pool' ∧ [] = managers := by
      simpa [Coordinator.initManagers] using made
    exact ⟨by simp, SameShape.refl pool, le_refl _, by simp⟩
  | cons spec rest ih =>
    simp only [Coordinator.initManagers] at made
    split at made
    · contradiction
    · rename_i middle manager single
      simp only [map_eq_some_iff, Prod.exists, Prod.mk.injEq] at made
      obtain ⟨final, others, tail, rfl, rfl⟩ := made
      obtain ⟨fresh, shape, atMost, sunk⟩ := managerInit_takes pool middle spec enableCaching groupId
        dcpWorldSize pcpWorldSize manager single
      obtain ⟨freshRest, shapeRest, atMostRest, sunkRest⟩ := ih (groupId + 1) middle others tail
      refine ⟨?_, shape.trans shapeRest, le_trans atMostRest atMost, ?_⟩
      · intro other member
        rcases mem_cons.mp member with rfl | inRest
        · exact fresh
        · exact freshRest other inRest
      · intro sink member
        rcases mem_cons.mp member with here | inRest
        · exact lt_of_le_of_lt atMostRest (sunk sink here.symm)
        · exact lt_of_lt_of_le (sunkRest sink inRest) atMost

/-- A new manager is idle, and fewer than all its blocks are free as soon as one group has sinks. -/
theorem init_idle (config : KVCacheConfig) (maxModelLen hashBlockSize : Nat)
    (enableCaching useEagle enableKvCacheEvents : Bool) (dcpWorldSize pcpWorldSize : Nat)
    (manager : KVCacheManager Digest)
    (made : KVCacheManager.init config maxModelLen hashBlockSize enableCaching useEagle
      enableKvCacheEvents dcpWorldSize pcpWorldSize = some manager) :
    Idle manager ∧
      manager.coordinator.blockPool.nullBlock < manager.coordinator.blockPool.numGpuBlocks ∧
      ∀ sink, .sinkFullAttention sink ∈ config.kvCacheGroups →
        manager.resetPrefixCache.1 = false := by
  unfold KVCacheManager.init at made
  rw [map_eq_some_iff] at made
  obtain ⟨coordinator, made, rfl⟩ := made
  unfold Coordinator.init at made
  simp only at made
  split at made
  · contradiction
  · split at made
    · contradiction
    · rename_i pool start
      rw [map_eq_some_iff] at made
      obtain ⟨⟨final, managers⟩, initialized, rfl⟩ := made
      obtain ⟨-, counted, -, -, null⟩ := init_counted _ _ _ _ pool start
      obtain ⟨fresh, shape, -, sunk⟩ := initManagers_takes _ _ _ _ _ pool final managers initialized
      have all := (free_all_iff counted null).mpr fun _ _ => rfl
      refine ⟨?_, ?_, ?_⟩
      · intro single member requestId block listed
        rw [Manager.blocksOf, fresh single member] at listed
        cases listed
      · rw [shape.nullBlock, shape.numGpuBlocks]
        exact null
      · intro sink member
        have size := shape.numGpuBlocks
        have less := sunk sink member
        apply Bool.eq_false_iff.mpr
        intro reset
        have free := (resetPrefixCache_true_iff final).mp reset
        omega

section
variable [DecidableEq Digest]

theorem run_settled (first later : KVCacheManager Digest) (settled : Settled first.coordinator)
    (run : Run first later) :
    Settled later.coordinator ∧ SameCoordinator first.coordinator later.coordinator := by
  induction run with
  | refl => exact ⟨settled, sameCoordinator_refl first.coordinator⟩
  | tail _ step ih =>
    obtain ⟨now, same⟩ := step_settled _ _ ih.1 step
    exact ⟨now, ih.2.trans same⟩

end

/-! Two groups without sinks, and one with a sink of one block. -/

def sinkGroup : KVCacheConfig :=
  ⟨10, [.sinkFullAttention ⟨⟨⟨2, 1, 8, ⟨"float16", 2⟩, none⟩, 8, none, none⟩, some 2⟩]⟩

def sinkManager : KVCacheManager Nat :=
  (KVCacheManager.init sinkGroup 100 2 true false false 1 1).get rfl

end VllmDcu.PrefixReset

import VllmDcu.KVEvents

/-! The free blocks in their order: touched blocks leave the queue, new blocks come from its
front and returned blocks go to its end. Nothing is asked of the hashes here. -/
namespace VllmDcu.FreeOrder
open Requests FreeBlockQueue BlockPool PoolCache PoolAccounts KVEvents List Option

variable {Digest : Type}

/-- The free blocks in their order. None of them is referenced. -/
structure Queued (pool : Pool Digest) (free : List BlockId) : Prop where
  holds : Holds pool.freeBlockQueue free
  unused : ∀ block ∈ free, block ≠ pool.nullBlock ∧ (pool.blocks block).refCnt = 0

variable (pool : Pool Digest)

/-- The free queue has some order. -/
theorem counted_queued (refs : BlockId → Nat) (out : BlockId → Prop)
    (counted : Counted pool refs out) : ∃ free, Queued pool free := by
  obtain ⟨free, holds, mem⟩ := counted.queue
  refine ⟨free, holds, fun block member => ?_⟩
  obtain ⟨-, real, unused, -⟩ := (mem block).mp member
  refine ⟨real, ?_⟩
  rw [counted.counts block real, unused]
  rfl

theorem queued_frame {pool' : Pool Digest} {free : List BlockId} (queued : Queued pool free)
    (same : SameCounts pool pool') : Queued pool' free := by
  constructor
  · rw [same.queue]
    exact queued.holds
  · intro block member
    rw [same.shape.nullBlock, same.counts]
    exact queued.unused block member

/-- A referenced block keeps its hash. -/
def KeepsHashes (pool pool' : Pool Digest) : Prop :=
  ∀ block, block ≠ pool.nullBlock → 0 < (pool.blocks block).refCnt →
    (pool.blocks block).blockHash ≠ none →
      (pool'.blocks block).blockHash = (pool.blocks block).blockHash

/-! Touching. -/

theorem remove_mem (queue queue' : FreeQueue) (free : List BlockId) (block : BlockId)
    (holds : Holds queue free) (removed : queue.remove block = some queue') : block ∈ free := by
  by_contra absent
  obtain ⟨prev, -⟩ := holds.represents.detached block absent
  simp [FreeQueue.remove, prev] at removed

theorem filter_ne_split {before after : List BlockId} {block : BlockId}
    (distinct : (before ++ block :: after).Nodup) :
    (before ++ block :: after).filter (fun other => decide (other ≠ block)) = before ++ after := by
  obtain ⟨notBefore, notAfter, -⟩ := LinkedQueue.nodup_middle distinct
  have kept : ∀ blocks : List BlockId, block ∉ blocks →
      blocks.filter (fun other => decide (other ≠ block)) = blocks := by
    intro blocks absent
    apply filter_eq_self.mpr
    rintro other member
    simpa using fun same : other = block => absent (same ▸ member)
  rw [filter_append, filter_cons, if_neg (by simp), kept before notBefore, kept after notAfter]

/-- Unlinking a block and referencing it. -/
theorem touchOne_queued (queue : FreeQueue) (free : List BlockId) (block : BlockId)
    (queued : Queued pool free) (removed : pool.freeBlockQueue.remove block = some queue) :
    Queued ({ pool with freeBlockQueue := queue }.addRef block 1)
      (free.filter fun other => decide (other ≠ block)) := by
  have inside := remove_mem _ _ _ block queued.holds removed
  obtain ⟨before, after, rfl⟩ := append_of_mem inside
  rw [filter_ne_split queued.holds.represents.distinct]
  obtain ⟨queue', result, holds⟩ := remove_holds pool.freeBlockQueue queued.holds
  obtain rfl : queue' = queue := some.inj (result.symm.trans removed)
  obtain ⟨notBefore, notAfter, -⟩ := LinkedQueue.nodup_middle queued.holds.represents.distinct
  constructor
  · exact holds
  · intro other member
    have differs : other ≠ block := by
      rintro rfl
      exact (mem_append.mp member).elim notBefore notAfter
    have old : other ∈ before ++ block :: after := by
      rw [mem_append, mem_cons]
      exact (mem_append.mp member).imp_right Or.inr
    obtain ⟨real, unused⟩ := queued.unused other old
    refine ⟨real, ?_⟩
    rw [addRef_refCnt, if_neg differs, Int.add_zero]
    exact unused

theorem touch_queued (pool' : Pool Digest) (blocks free : List BlockId) (queued : Queued pool free)
    (touched : pool.touch blocks = some pool') :
    Queued pool' (free.filter fun block => decide (block ∉ blocks)) ∧
      ∀ block, (pool'.blocks block).refCnt = (pool.blocks block).refCnt + blocks.count block := by
  induction blocks generalizing pool free with
  | nil =>
    obtain rfl : pool = pool' := some.inj touched
    constructor
    · rwa [filter_eq_self.mpr (by simp)]
    · simp
  | cons block rest ih =>
    have both : free.filter (fun other => decide (other ∉ block :: rest)) =
        (free.filter fun other => decide (other ≠ block)).filter
          fun other => decide (other ∉ rest) := by
      simp [not_or, Bool.and_comm]
    have counted : ∀ linked : Pool Digest, linked.blocks = pool.blocks →
        ∀ other, ((linked.addRef block 1).blocks other).refCnt + (rest.count other : Int) =
          (pool.blocks other).refCnt + ((block :: rest).count other : Int) := by
      intro linked same other
      rw [addRef_refCnt, same]
      by_cases here : other = block
      · simp [here]
        omega
      · simp [here, Ne.symm here]
    rw [Pool.touch] at touched
    split at touched
    · split at touched
      · contradiction
      · rename_i queue removed
        obtain ⟨queued', counts⟩ :=
          ih _ _ (touchOne_queued pool queue free block queued removed) touched
        rw [both]
        exact ⟨queued', fun other => (counts other).trans (counted _ rfl other)⟩
    · rename_i held
      -- A block that is referenced, or the null block, is not in the queue.
      have absent : block ∉ free := by
        intro inside
        obtain ⟨real, unused⟩ := queued.unused block inside
        exact held ⟨unused, by simpa [Pool.isNull] using real⟩
      have kept : free.filter (fun other => decide (other ≠ block)) = free := by
        apply filter_eq_self.mpr
        intro other member
        simpa using fun same : other = block => absent (same ▸ member)
      have queuedNow : Queued (pool.addRef block 1) free := by
        constructor
        · exact queued.holds
        · intro other member
          obtain ⟨real, unused⟩ := queued.unused other member
          have differs : other ≠ block := fun same => absent (same ▸ member)
          refine ⟨real, ?_⟩
          rw [addRef_refCnt, if_neg differs, Int.add_zero]
          exact unused
      obtain ⟨queued', counts⟩ := ih _ _ queuedNow touched
      rw [both, kept]
      exact ⟨queued', fun other => (counts other).trans (counted _ rfl other)⟩

/-! Returning. -/

theorem dropRefs_refCnt (blocks : List BlockId) (block : BlockId) :
    (((blocks.foldl (fun pool block => pool.addRef block (-1)) pool).blocks block).refCnt) =
      (pool.blocks block).refCnt - blocks.count block := by
  induction blocks generalizing pool with
  | nil => simp
  | cons first rest ih =>
    rw [foldl_cons, ih]
    by_cases here : block = first
    · simp [here]
      omega
    · simp [here, Ne.symm here]

/-- Blocks that are in use and returned once join the end of the queue if nobody else has them. -/
theorem freeBlocks_queued {pool' : Pool Digest} {blocks free : List BlockId}
    (queued : Queued pool free) (once : ∀ block, block ≠ pool.nullBlock → blocks.count block ≤ 1)
    (used : ∀ block ∈ blocks, block ≠ pool.nullBlock → 0 < (pool.blocks block).refCnt)
    (freed : pool.freeBlocks blocks = some pool') :
    (∃ back, Queued pool' (free ++ back) ∧
      ∀ block ∈ back, block ∈ blocks ∧ block ≠ pool.nullBlock) ∧
      ∀ block, (pool'.blocks block).refCnt = (pool.blocks block).refCnt - blocks.count block := by
  let dropped := blocks.foldl (fun pool block => pool.addRef block (-1)) pool
  let back := blocks.filter fun block =>
    decide ((dropped.blocks block).refCnt = 0) && !dropped.isNull block
  have changed : ∀ (blocks : List BlockId) (pool : Pool Digest),
      (blocks.foldl (fun pool block => pool.addRef block (-1)) pool).freeBlockQueue =
        pool.freeBlockQueue ∧
      (blocks.foldl (fun pool block => pool.addRef block (-1)) pool).nullBlock =
        pool.nullBlock := by
    intro blocks
    induction blocks with
    | nil => exact fun pool => ⟨rfl, rfl⟩
    | cons block rest ih => exact fun pool => ih (pool.addRef block (-1))
  obtain ⟨queue, null⟩ := changed blocks pool
  have inBack : ∀ block ∈ back, block ∈ blocks ∧ block ≠ pool.nullBlock ∧
      (dropped.blocks block).refCnt = 0 := by
    intro block member
    obtain ⟨listed, last⟩ := mem_filter.mp member
    rw [Bool.and_eq_true, decide_eq_true_iff, Pool.isNull, null] at last
    exact ⟨listed, by simpa using last.2, last.1⟩
  have fresh : ∀ block ∈ back, block ∉ free := by
    intro block member inFree
    obtain ⟨listed, real, -⟩ := inBack block member
    have unused := (queued.unused block inFree).2
    have := used block listed real
    omega
  have nodup : back.Nodup := by
    rw [nodup_iff_count_le_one]
    intro block
    by_cases member : block ∈ back
    · exact Nat.le_trans (filter_sublist.count_le block) (once block (inBack block member).2.1)
    · rw [count_eq_zero.mpr member]
      exact Nat.zero_le 1
  have holds : Holds dropped.freeBlockQueue free := by
    rw [queue]
    exact queued.holds
  obtain ⟨appended, result, holds'⟩ := appendN_holds dropped.freeBlockQueue fresh nodup holds
  have final : pool' = { dropped with freeBlockQueue := appended } := by
    have same : (dropped.freeBlockQueue.appendN back).map
        (fun queue => { dropped with freeBlockQueue := queue }) = some pool' := freed
    rw [result] at same
    exact (some.inj same).symm
  have counts : ∀ block, (pool'.blocks block).refCnt =
      (pool.blocks block).refCnt - blocks.count block := by
    intro block
    rw [final]
    exact dropRefs_refCnt pool blocks block
  refine ⟨⟨back, ⟨?_, ?_⟩, fun block member => ⟨(inBack block member).1, (inBack block member).2.1⟩⟩,
    counts⟩
  · rw [final]
    exact holds'
  · intro block member
    rw [final]
    rw [null]
    rcases mem_append.mp member with inFree | returned
    · obtain ⟨real, unused⟩ := queued.unused block inFree
      refine ⟨real, ?_⟩
      have absent : block ∉ blocks := by
        intro listed
        have := used block listed real
        omega
      rw [dropRefs_refCnt, count_eq_zero.mpr absent, unused]
      rfl
    · exact (inBack block returned).2

section
variable [DecidableEq Digest]

/-! Taking. -/

theorem maybeEvict_frame {pool : Pool Digest} {block : BlockId} :
    SameCounts pool (pool.maybeEvictCachedBlock block).2 ∧
      ∀ other, other ≠ block → ((pool.maybeEvictCachedBlock block).2.blocks other).blockHash =
        (pool.blocks other).blockHash := by
  unfold Pool.maybeEvictCachedBlock
  cases (pool.blocks block).blockHash with
  | none => exact ⟨SameCounts.refl pool, fun _ _ => rfl⟩
  | some key =>
    simp only
    cases BlockHashToBlockMap.pop pool.cachedBlockHashToBlock key block with
    | mk found cache =>
      cases found with
      | none => exact ⟨⟨⟨rfl, rfl, rfl, rfl⟩, rfl, fun _ => rfl⟩, fun _ _ => rfl⟩
      | some evicted =>
        obtain ⟨blocks, queue, -, shape⟩ := addEvent_frame
          { pool.setHash block none with cachedBlockHashToBlock := cache }
          (.blockRemoved [key.1] mediumGpu)
        have here : SameShape pool
            { pool.setHash block none with cachedBlockHashToBlock := cache } :=
          ⟨rfl, rfl, rfl, rfl⟩
        refine ⟨⟨here.trans shape, queue, fun other => ?_⟩, fun other differs => ?_⟩
        · rw [blocks]
          exact setHash_refCnt pool block other none
        · rw [blocks]
          exact (setHash_blockHash pool block other none).trans (if_neg differs)

theorem takeLoop_frame (pool pool' : Pool Digest) (ids : List BlockId)
    (taken : pool.takeLoop ids = some pool') :
    SameShape pool pool' ∧ pool'.freeBlockQueue = pool.freeBlockQueue ∧
      (∀ block, (pool'.blocks block).refCnt = (pool.blocks block).refCnt + ids.count block) ∧
      ∀ block, block ∉ ids → (pool'.blocks block).blockHash = (pool.blocks block).blockHash := by
  induction ids generalizing pool with
  | nil =>
    obtain rfl : pool = pool' := some.inj taken
    exact ⟨SameShape.refl pool, rfl, by simp, fun _ _ => rfl⟩
  | cons first rest ih =>
    obtain ⟨evicted, frame, others, taken⟩ : ∃ evicted : Pool Digest, SameCounts pool evicted ∧
        (∀ other, other ≠ first →
          (evicted.blocks other).blockHash = (pool.blocks other).blockHash) ∧
        (evicted.addRef first 1).takeLoop rest = some pool' := by
      rw [Pool.takeLoop] at taken
      by_cases caching : pool.enableCaching = true
      · simp only [caching, ↓reduceIte] at taken
        split at taken
        · exact ⟨_, maybeEvict_frame.1, maybeEvict_frame.2, taken⟩
        · contradiction
      · simp only [Bool.eq_false_iff.mpr caching, Bool.false_eq_true, ↓reduceIte] at taken
        split at taken
        · exact ⟨pool, SameCounts.refl pool, fun _ _ => rfl, taken⟩
        · contradiction
    obtain ⟨shape, queue, counts, hashes⟩ := ih _ taken
    refine ⟨(frame.shape.trans (addRef_shape _ _ _)).trans shape, queue.trans frame.queue, ?_, ?_⟩
    · intro block
      rw [counts, addRef_refCnt, frame.counts]
      by_cases here : block = first
      · simp [here]
        omega
      · simp [here, Ne.symm here]
    · intro block absent
      rw [mem_cons, not_or] at absent
      rw [hashes block absent.2, addRef_blockHash, others block absent.1]

/-- New blocks are the first of the queue. -/
theorem getNewBlocks_queued {pool pool' : Pool Digest} {numBlocks : Int} {ids free : List BlockId}
    (nonneg : 0 ≤ numBlocks) (queued : Queued pool free)
    (got : pool.getNewBlocks numBlocks = some (ids, pool')) :
    ids = free.take numBlocks.toNat ∧ Queued pool' (free.drop numBlocks.toNat) ∧
      SameShape pool pool' ∧
      (∀ block, (pool'.blocks block).refCnt = (pool.blocks block).refCnt + ids.count block) ∧
      ∀ block, block ∉ ids → (pool'.blocks block).blockHash = (pool.blocks block).blockHash := by
  obtain ⟨n, rfl⟩ := Int.eq_ofNat_of_zero_le nonneg
  unfold Pool.getNewBlocks at got
  split at got
  · contradiction
  · rename_i few
    have enough : n ≤ free.length := by
      rw [Pool.getNumFreeBlocks, queued.holds.count] at few
      omega
    obtain ⟨queue, popped, holds⟩ := popleftN_holds _ enough queued.holds
    rw [popped] at got
    obtain ⟨final, taken, same⟩ := map_eq_some_iff.mp got
    obtain ⟨rfl, rfl⟩ := Prod.mk.inj same
    obtain ⟨shape, queue', counts, hashes⟩ := takeLoop_frame _ final _ taken
    have bare : SameShape pool { pool with freeBlockQueue := queue } := ⟨rfl, rfl, rfl, rfl⟩
    refine ⟨rfl, ⟨?_, ?_⟩, bare.trans shape, counts, hashes⟩
    · rw [queue']
      exact holds
    · intro block member
      obtain ⟨real, unused⟩ := queued.unused block (mem_of_mem_drop member)
      have apart := queued.holds.represents.distinct
      rw [← take_append_drop n free] at apart
      have absent : block ∉ free.take n := fun inTake =>
        (nodup_append.mp apart).2.2 block inTake block member rfl
      rw [shape.nullBlock, counts, count_eq_zero.mpr absent]
      exact ⟨real, by simpa using unused⟩

/-! Caching and evicting. -/

theorem cacheLoop_frame (groupId : Nat) (pool pool' : Pool Digest) (blocks : List BlockId)
    (hashes newHashes : List (List Digest))
    (cached : pool.cacheLoop groupId blocks hashes = some (pool', newHashes)) :
    SameCounts pool pool' ∧ KeepsHashes pool pool' := by
  induction blocks generalizing pool hashes newHashes with
  | nil =>
    simp only [Pool.cacheLoop, some.injEq, Prod.mk.injEq] at cached
    obtain ⟨rfl, -⟩ := cached
    exact ⟨SameCounts.refl pool, fun _ _ _ _ => rfl⟩
  | cons block rest ih =>
    by_cases null : pool.isNull block = true
    · simp only [Pool.cacheLoop, null, ↓reduceIte] at cached
      exact ih pool _ newHashes cached
    · simp only [Pool.cacheLoop, Bool.eq_false_iff.mpr null, Bool.false_eq_true,
        ↓reduceIte] at cached
      cases bare : (pool.blocks block).blockHash with
      | some key => simp [bare] at cached
      | none =>
        cases hashes with
        | nil => simp [bare] at cached
        | cons hash hashes =>
          simp only [bare, map_eq_some_iff, Prod.exists, Prod.mk.injEq] at cached
          obtain ⟨final, others, result, rfl, -⟩ := cached
          obtain ⟨counts, keeps⟩ := ih _ _ others result
          have first : SameCounts pool { pool.setHash block (some (hash, groupId)) with
              cachedBlockHashToBlock := BlockHashToBlockMap.insert
                pool.cachedBlockHashToBlock (hash, groupId) block } :=
            ⟨⟨rfl, rfl, rfl, rfl⟩, rfl, fun other => setHash_refCnt pool block other _⟩
          refine ⟨first.trans counts, ?_⟩
          -- Only a block without a hash gets one.
          intro other real used known
          have differs : other ≠ block := by
            rintro rfl
            exact known bare
          have kept : ((pool.setHash block (some (hash, groupId))).blocks other).blockHash =
              (pool.blocks other).blockHash := by
            rw [setHash_blockHash, if_neg differs]
          refine (keeps other real ?_ (fun gone => known (kept.symm.trans gone))).trans kept
          exact used.trans_eq (setHash_refCnt pool block other _).symm

theorem cacheFullBlocks_frame {pool pool' : Pool Digest} {request : Request Digest}
    (blocks : List BlockId) {numCachedBlocks numFullBlocks blockSize groupId : Nat}
    (cached : pool.cacheFullBlocks request blocks numCachedBlocks numFullBlocks blockSize groupId =
      some pool') : SameCounts pool pool' ∧ KeepsHashes pool pool' := by
  unfold Pool.cacheFullBlocks at cached
  split at cached
  · obtain rfl := some.inj cached
    exact ⟨SameCounts.refl pool, fun _ _ _ _ => rfl⟩
  · split at cached
    · contradiction
    · split at cached
      · contradiction
      · simp only at cached
        split at cached
        · contradiction
        · rename_i now newHashes result
          obtain ⟨counts, keeps⟩ := cacheLoop_frame _ _ _ _ _ _ result
          split at cached
          · obtain ⟨event, -, rfl⟩ := map_eq_some_iff.mp cached
            refine ⟨counts.trans (addEvent_sameCounts now event), ?_⟩
            intro block real used known
            rw [(addEvent_sameHashes now event).hashes]
            exact keeps block real used known
          · obtain rfl := some.inj cached
            exact ⟨counts, keeps⟩

end

/-! The free blocks as a list. -/

/-- What popping all blocks would give. -/
def freeList (pool : Pool Digest) : List BlockId :=
  (pool.freeBlockQueue.popleftN pool.freeBlockQueue.numFreeBlocks).elim [] Prod.fst

theorem freeList_eq (pool : Pool Digest) (free : List BlockId) (queued : Queued pool free) :
    freeList pool = free := by
  obtain ⟨queue, popped, -⟩ := popleftN_holds pool.freeBlockQueue (le_refl _) queued.holds
  unfold freeList
  rw [queued.holds.count, popped, take_length]
  rfl

end VllmDcu.FreeOrder

import VllmDcu.RequestRun

/-! `allocate_slots` as a whole: the estimate covers what the call takes from the free
queue, and a refused call leaves all but the skipped blocks. -/
namespace VllmDcu.SlotAllocation
open Requests FreeBlockQueue BlockPool KVCacheInterface MathUtils SingleTypeManager CacheManager
open PoolCache PoolAccounts TableAccounts PoolInvariant LinkedQueue List Option

variable {Digest : Type}

/-! Blocks that leave the queue. -/

/-- No block became unreferenced. -/
def Held (pool pool' : Pool Digest) : Prop :=
  ∀ block, block ≠ pool.nullBlock → (pool'.blocks block).refCnt = 0 →
    (pool.blocks block).refCnt = 0

theorem held_of_counted {pool pool' : Pool Digest} {refs refs' : BlockId → Nat}
    {out out' : BlockId → Prop} (shape : SameShape pool pool') (counted : Counted pool refs out)
    (counted' : Counted pool' refs' out') (more : ∀ block, refs block ≤ refs' block) :
    Held pool pool' := by
  intro block real unused
  have before := counted.counts block real
  have after := counted'.counts block (by rw [shape.nullBlock]; exact real)
  have grows := more block
  omega

theorem evictable_le {pool pool' : Pool Digest} (shape : SameShape pool pool')
    (held : Held pool pool') (blocks : List BlockId) :
    Manager.getNumEvictableBlocks pool' blocks ≤ Manager.getNumEvictableBlocks pool blocks := by
  apply countP_mono_left
  intro block _ evictable
  simp only [Bool.and_eq_true, decide_eq_true_eq, Bool.not_eq_true', Pool.isNull,
    decide_eq_false_iff_not] at evictable ⊢
  rw [shape.nullBlock] at evictable
  exact ⟨held block evictable.2 evictable.1, evictable.2⟩

/-- Touching takes at most the evictable blocks out of the queue. -/
theorem touch_free {pool : Pool Digest} {blocks : List BlockId} (refs : BlockId → Nat)
    (counted : Counted pool refs fun _ => False)
    (valid : ∀ block ∈ blocks, block = pool.nullBlock ∨ block < pool.numGpuBlocks) :
    ∃ pool', pool.touch blocks = some pool' ∧ SameHashes pool pool' ∧
      Counted pool' (fun block => refs block + blocks.count block) (fun _ => False) ∧
      pool.getNumFreeBlocks ≤
        pool'.getNumFreeBlocks + Manager.getNumEvictableBlocks pool blocks := by
  obtain ⟨pool', touched, same, counted'⟩ := touch_counted pool blocks refs counted valid
  refine ⟨pool', touched, same, counted', ?_⟩
  obtain ⟨free, holds, mem⟩ := counted.queue
  obtain ⟨free', holds', mem'⟩ := counted'.queue
  let taken := blocks.filter fun block =>
    decide ((pool.blocks block).refCnt = 0) && !pool.isNull block
  have split : free ⊆ free' ++ taken := by
    intro block member
    obtain ⟨within, real, unused, _⟩ := (mem block).mp member
    rw [mem_append]
    by_cases shared : block ∈ blocks
    · right
      have count := counted.counts block real
      simp only [taken, mem_filter, shared, Bool.and_eq_true, decide_eq_true_eq,
        Bool.not_eq_true', Pool.isNull, decide_eq_false_iff_not, true_and]
      exact ⟨by omega, real⟩
    · left
      apply (mem' block).mpr
      rw [same.shape.numGpuBlocks, same.shape.nullBlock, count_eq_zero.mpr shared]
      exact ⟨within, real, by omega, not_false⟩
  have length := (subperm_of_subset holds.represents.distinct split).length_le
  rw [length_append] at length
  have evictable : Manager.getNumEvictableBlocks pool blocks = taken.length :=
    countP_eq_length_filter
  rw [Pool.getNumFreeBlocks, Pool.getNumFreeBlocks, holds.count, holds'.count]
  omega

/-- A call on every manager that takes no more than its cost succeeds when the queue has
room for all costs. -/
theorem mapManagers_succeeds {Result : Type}
    (call : Pool Digest → Manager Digest → Option (Result × Pool Digest × Manager Digest))
    (cost : Pool Digest → Manager Digest → Nat)
    (post : Manager Digest → Manager Digest → Prop) (keep : Pool Digest → Pool Digest → Prop)
    (keep_refl : ∀ pool, keep pool pool)
    (keep_trans : ∀ first second third, keep first second → keep second third → keep first third)
    (base pool : Pool Digest) (managers : List (Manager Digest)) (rest : BlockId → Nat)
    (succeeds : ∀ manager ∈ managers, ∀ pool rest, SameShape base pool →
      Sound pool manager rest → (cost pool manager : Int) ≤ pool.getNumFreeBlocks →
        ∃ result pool' manager', call pool manager = some (result, pool', manager') ∧
          Sound pool' manager' rest ∧ SameShape pool pool' ∧ SameManager manager manager' ∧
          pool.getNumFreeBlocks ≤ pool'.getNumFreeBlocks + cost pool manager ∧
          (∀ other, cost pool' other ≤ cost pool other) ∧ keep pool pool' ∧
          post manager manager')
    (shape : SameShape base pool) (balanced : Balanced pool managers rest)
    (room : (((managers.map (cost pool)).sum : Nat) : Int) ≤ pool.getNumFreeBlocks) :
    ∃ results pool' managers', mapManagers call pool managers = some (results, pool', managers') ∧
      Balanced pool' managers' rest ∧ SameShape pool pool' ∧ keep pool pool' ∧
      pool.getNumFreeBlocks ≤ pool'.getNumFreeBlocks + ((managers.map (cost pool)).sum : Nat) ∧
      List.Forall₂ (fun manager manager' => SameManager manager manager' ∧ post manager manager')
        managers managers' := by
  induction managers generalizing pool rest with
  | nil =>
    refine ⟨[], pool, [], rfl, balanced, SameShape.refl pool, keep_refl pool, ?_, Forall₂.nil⟩
    simp
  | cons manager managers ih =>
    obtain ⟨sound, singles⟩ := (balanced_cons pool manager managers rest).mp balanced
    rw [map_cons, sum_cons] at room ⊢
    obtain ⟨result, pool₁, manager₁, called, soundNow, shapeNow, same, free, cheaper,
        kept, after⟩ :=
      succeeds manager mem_cons_self pool _ shape sound (by omega)
    have balancedTail : Balanced pool₁ managers fun block =>
        occurrences manager₁ block + rest block := by
      constructor
      · exact soundNow.hashed
      · apply counted_congr pool₁ _ _ _ _ soundNow.counted
        · omega
        · simp
      · intro other member requestId
        rw [shapeNow.nullBlock]
        exact singles other member requestId
    have tailCost : (managers.map (cost pool₁)).sum ≤ (managers.map (cost pool)).sum :=
      sum_le_sum fun other _ => cheaper other
    obtain ⟨results, final, managers', mapped, balancedNow, shapeTail, keptTail, freeTail, posts⟩ :=
      ih pool₁ _ (fun other member => succeeds other (mem_cons_of_mem _ member))
        (shape.trans shapeNow) balancedTail (by omega)
    refine ⟨result :: results, final, manager₁ :: managers', ?_, ?_, shapeNow.trans shapeTail,
      keep_trans _ _ _ kept keptTail, by omega, Forall₂.cons ⟨same, after⟩ posts⟩
    · simp only [mapManagers, called, mapped, map_some]
    · rw [balanced_cons]
      constructor
      · constructor
        · exact balancedNow.hashed
        · apply counted_congr final _ _ _ _ balancedNow.counted
          · omega
          · simp
        · intro requestId
          rw [shapeTail.nullBlock]
          exact soundNow.single requestId
      · exact balancedNow.single

/-! One manager. -/

section
variable [DecidableEq Digest]

def skippedBlocks (manager : Manager Digest) (totalComputedTokens : Int) : Int :=
  manager.getNumSkippedTokens totalComputedTokens / manager.blockSize

/-- The computed blocks that the table of a new request keeps. -/
def keptHits (manager : Manager Digest) (blocks : List BlockId) (totalComputedTokens : Int) :
    List BlockId :=
  blocks.drop (skippedBlocks manager totalComputedTokens).toNat

/-- The entries of a new request's table for skipped and computed blocks. -/
def computedEntries (manager : Manager Digest) (blocks : List BlockId) (totalComputedTokens : Int) :
    Int :=
  max (max (skippedBlocks manager totalComputedTokens) blocks.length) 0

/-- The external computed tokens that are not skipped. -/
def externalRest (manager : Manager Digest) (total numExternalComputedTokens : Int) : Int :=
  if skippedBlocks manager total > 0 then
    min (total - manager.getNumSkippedTokens total) numExternalComputedTokens
  else numExternalComputedTokens

variable (manager : Manager Digest)

omit [DecidableEq Digest] in
theorem externalRest_le (total numExternalComputedTokens : Int) :
    externalRest manager total numExternalComputedTokens ≤ numExternalComputedTokens := by
  rw [externalRest]
  split
  · exact Int.min_le_right _ _
  · exact Int.le_refl _

/-- The count of the `get_new_blocks` call for external computed tokens, if it is made. -/
def externalDraw (manager : Manager Digest) (blocks : List BlockId)
    (numLocalComputedTokens numExternalComputedTokens : Int) : Option Int :=
  if externalRest manager (numLocalComputedTokens + numExternalComputedTokens)
      numExternalComputedTokens > 0 then
    some (cdiv (numLocalComputedTokens + numExternalComputedTokens) manager.blockSize -
      computedEntries manager blocks (numLocalComputedTokens + numExternalComputedTokens))
  else none

/-- `allocate_new_computed_blocks` touches the kept hits and draws the external blocks. -/
theorem addComputedBlocks_eq {pool : Pool Digest} {requestId : ReqId} {blocks : List BlockId}
    {numLocalComputedTokens numExternalComputedTokens : Int}
    (caching : manager.enableCaching = true ∨ blocks = []) :
    manager.addComputedBlocks pool requestId blocks numLocalComputedTokens
        numExternalComputedTokens =
      (pool.touch (keptHits manager blocks
          (numLocalComputedTokens + numExternalComputedTokens))).bind fun touched =>
        let table := replicate (skippedBlocks manager
            (numLocalComputedTokens + numExternalComputedTokens)).toNat touched.nullBlock ++
          keptHits manager blocks (numLocalComputedTokens + numExternalComputedTokens)
        let recorded : Manager Digest :=
          { manager.setBlocks requestId table with
            numCachedBlock := manager.numCachedBlock.set requestId table.length }
        match externalDraw manager blocks numLocalComputedTokens numExternalComputedTokens with
        | none => some (touched, recorded)
        | some count =>
          (touched.getNewBlocks count).map fun drawn =>
            (drawn.2, (recorded.setBlocks requestId (table ++ drawn.1)).noteNewBlocks drawn.1) := by
  generalize whole : numLocalComputedTokens + numExternalComputedTokens = total
  have tableLength (null : BlockId) :
      ((replicate (skippedBlocks manager total).toNat null ++
        keptHits manager blocks total).length : Int) = computedEntries manager blocks total := by
    rw [length_append, length_replicate, keptHits, length_drop, computedEntries]
    omega
  have kept : (if decide (skippedBlocks manager total > 0) = true then
        blocks.drop (skippedBlocks manager total).toNat
      else blocks) = keptHits manager blocks total := by
    rw [keptHits]
    by_cases skipped : skippedBlocks manager total > 0
    · rw [if_pos (decide_eq_true skipped)]
    · have zero : (skippedBlocks manager total).toNat = 0 := by omega
      rw [if_neg (by rw [decide_eq_false skipped]; exact Bool.false_ne_true), zero, drop_zero]
  have touched : (if manager.enableCaching = true then pool.touch (keptHits manager blocks total)
      else if (keptHits manager blocks total).isEmpty = true then some pool else none) =
      pool.touch (keptHits manager blocks total) := by
    cases caching with
    | inl on => rw [if_pos on]
    | inr empty =>
      rw [keptHits, empty, drop_nil]
      cases manager.enableCaching with
      | true => rfl
      | false => rfl
  have remaining : (if decide (skippedBlocks manager total > 0) = true then
        min (total - manager.getNumSkippedTokens total) numExternalComputedTokens
      else numExternalComputedTokens) = externalRest manager total numExternalComputedTokens := by
    rw [externalRest]
    by_cases skipped : skippedBlocks manager total > 0
    · rw [if_pos (decide_eq_true skipped), if_pos skipped]
    · rw [if_neg (by rw [decide_eq_false skipped]; exact Bool.false_ne_true), if_neg skipped]
  unfold Manager.addComputedBlocks
  simp only [whole]
  rw [← skippedBlocks, kept, touched, remaining]
  cases pool.touch (keptHits manager blocks total) with
  | none => rfl
  | some pool' =>
    simp only [externalDraw, whole, bind_some]
    by_cases more : externalRest manager total numExternalComputedTokens > 0
    · rw [if_pos more, if_pos more, tableLength]
      rfl
    · rw [if_neg more, if_neg more]

omit [DecidableEq Digest] in
theorem externalDraw_nonneg (managed : Managed manager.kvCacheSpec)
    (positive : 0 < manager.blockSize) (blocks : List BlockId)
    (numLocalComputedTokens numExternalComputedTokens : Int)
    (fits : 0 < numExternalComputedTokens →
      (blocks.length : Int) * manager.blockSize ≤ numLocalComputedTokens) (count : Int)
    (drawn : externalDraw manager blocks numLocalComputedTokens numExternalComputedTokens =
      some count) :
    0 ≤ count ∧ count = cdiv (numLocalComputedTokens + numExternalComputedTokens) manager.blockSize -
      computedEntries manager blocks (numLocalComputedTokens + numExternalComputedTokens) := by
  rw [externalDraw] at drawn
  split at drawn
  · rename_i more
    cases drawn
    refine ⟨?_, rfl⟩
    have external : 0 < numExternalComputedTokens :=
      Int.lt_of_lt_of_le more (externalRest_le manager _ _)
    have enough := computed_le_required managed.windowed positive
      numLocalComputedTokens numExternalComputedTokens external (fits external)
    have known : (0 : Int) ≤ blocks.length := Int.natCast_nonneg _
    rw [computedEntries, max_eq_left (le_trans known (le_max_right _ _))]
    exact Int.sub_nonneg_of_le enough
  · cases drawn

/-- The blocks that `allocate_new_computed_blocks` takes for a new request. -/
def computedCost (manager : Manager Digest) (blocks : List BlockId)
    (numLocalComputedTokens numExternalComputedTokens : Int) (pool : Pool Digest) : Nat :=
  Manager.getNumEvictableBlocks pool (keptHits manager blocks
      (numLocalComputedTokens + numExternalComputedTokens)) +
    ((externalDraw manager blocks numLocalComputedTokens numExternalComputedTokens).getD 0).toNat

theorem addComputedBlocks_succeeds {pool : Pool Digest} {requestId : ReqId}
    (managed : Managed manager.kvCacheSpec) (positive : 0 < manager.blockSize)
    {blocks : List BlockId} {numLocalComputedTokens numExternalComputedTokens : Int}
    {rest : BlockId → Nat} (sound : Sound pool manager rest)
    (fits : Fits pool manager blocks numLocalComputedTokens numExternalComputedTokens)
    (caching : manager.enableCaching = true ∨ blocks = [])
    (room : (computedCost manager blocks numLocalComputedTokens numExternalComputedTokens pool :
      Int) ≤ pool.getNumFreeBlocks) :
    ∃ pool' manager', manager.addComputedBlocks pool requestId blocks numLocalComputedTokens
        numExternalComputedTokens = some (pool', manager') ∧
      Held pool pool' ∧
      pool.getNumFreeBlocks ≤ pool'.getNumFreeBlocks + computedCost manager blocks
        numLocalComputedTokens numExternalComputedTokens pool ∧
      ((manager'.blocksOf requestId).length : Int) =
        computedEntries manager blocks (numLocalComputedTokens + numExternalComputedTokens) +
          (externalDraw manager blocks numLocalComputedTokens
            numExternalComputedTokens).getD 0 := by
  generalize whole : numLocalComputedTokens + numExternalComputedTokens = total
  rw [computedCost, whole] at room
  have valid : ∀ block ∈ keptHits manager blocks total,
      block = pool.nullBlock ∨ block < pool.numGpuBlocks :=
    fun block member => fits.valid block (mem_of_mem_drop member)
  obtain ⟨touched, touching, same, counted, free⟩ := touch_free _ sound.counted valid
  have tableLength (null : BlockId) :
      ((replicate (skippedBlocks manager total).toNat null ++
        keptHits manager blocks total).length : Int) = computedEntries manager blocks total := by
    rw [length_append, length_replicate, keptHits, length_drop, computedEntries]
    omega
  have heldTouch : Held pool touched :=
    held_of_counted same.shape sound.counted counted fun block => Nat.le_add_right _ _
  rw [addComputedBlocks_eq manager caching, whole, touching, bind_some, computedCost, whole]
  cases drawn : externalDraw manager blocks numLocalComputedTokens numExternalComputedTokens with
  | none =>
    refine ⟨touched, _, rfl, heldTouch, ?_, ?_⟩
    · exact free
    · rw [getD_none, Int.add_zero, ← tableLength touched.nullBlock]
      have table := blocksOf_set manager requestId requestId
        (replicate (skippedBlocks manager total).toNat touched.nullBlock ++
          keptHits manager blocks total)
      rw [if_pos rfl] at table
      exact congrArg (fun blocks : List BlockId => (blocks.length : Int)) table
  | some count =>
    obtain ⟨nonneg, _⟩ := externalDraw_nonneg manager managed positive blocks _ _ fits.computed
      count drawn
    rw [drawn, getD_some] at room
    obtain ⟨ids, allocated, got, left, number, _, _, taken, _, countedNow⟩ :=
      getNewBlocks_some count.toNat counted (same.hashed sound.hashed) (by
        omega)
    rw [Int.toNat_of_nonneg nonneg] at got
    simp only [got, map_some, getD_some]
    refine ⟨allocated, _, rfl, ?_, ?_, ?_⟩
    · apply held_of_counted (same.shape.trans taken.shape) sound.counted countedNow
      omega
    · omega
    · generalize recorded : ({ manager.setBlocks requestId
          (replicate (skippedBlocks manager total).toNat touched.nullBlock ++
            keptHits manager blocks total) with
        numCachedBlock := manager.numCachedBlock.set requestId
          (replicate (skippedBlocks manager total).toNat touched.nullBlock ++
            keptHits manager blocks total).length } : Manager Digest) = next
      obtain ⟨tables, _, _⟩ := noteNewBlocks_frame (next.setBlocks requestId
        (replicate (skippedBlocks manager total).toNat touched.nullBlock ++
          keptHits manager blocks total ++ ids)) ids
      rw [Manager.blocksOf, tables]
      have table := blocksOf_set next requestId requestId
        (replicate (skippedBlocks manager total).toNat touched.nullBlock ++
          keptHits manager blocks total ++ ids)
      rw [if_pos rfl, Manager.blocksOf] at table
      rw [table, length_append]
      push_cast
      have base := tableLength touched.nullBlock
      rw [base, number, Int.toNat_of_nonneg nonneg]

def newCost (manager : Manager Digest) (requestId : ReqId) (numTokens : Int) : Nat :=
  (cdiv numTokens manager.blockSize - (manager.blocksOf requestId).length).toNat

theorem baseAllocateNewBlocks_succeeds {pool : Pool Digest} {requestId : ReqId} (numTokens : Int)
    {rest : BlockId → Nat} (sound : Sound pool manager rest)
    (room : (newCost manager requestId numTokens : Int) ≤ pool.getNumFreeBlocks) :
    ∃ newBlocks pool' manager', manager.baseAllocateNewBlocks pool requestId numTokens =
        some (newBlocks, pool', manager') ∧
      pool.getNumFreeBlocks ≤ pool'.getNumFreeBlocks + newCost manager requestId numTokens := by
  rw [newCost] at room ⊢
  unfold Manager.baseAllocateNewBlocks
  by_cases nothing : cdiv numTokens manager.blockSize - (manager.blocksOf requestId).length ≤ 0
  · refine ⟨_, _, _, if_pos nothing, ?_⟩
    omega
  · obtain ⟨ids, allocated, got, left, _⟩ := getNewBlocks_some _ sound.counted sound.hashed room
    rw [Int.toNat_of_nonneg (by omega)] at got
    simp only [if_neg nothing, got, map_some]
    refine ⟨_, _, _, rfl, ?_⟩
    omega

end

/-! Skipped blocks. -/

/-- A table of which some entries were replaced by the null block. -/
structure Released (nullBlock : BlockId) (requestId : ReqId) (manager manager' : Manager Digest) :
    Prop where
  numCachedBlock : manager'.numCachedBlock = manager.numCachedBlock
  others : ∀ other, other ≠ requestId → manager'.blocksOf other = manager.blocksOf other
  length : (manager'.blocksOf requestId).length = (manager.blocksOf requestId).length
  entries : ∀ index : Nat, (manager'.blocksOf requestId)[index]? =
      (manager.blocksOf requestId)[index]? ∨
    (manager'.blocksOf requestId)[index]? = some nullBlock

theorem skipLoop_entries (nullBlock : BlockId) (count : Nat) (blocks : List BlockId) :
    (Manager.skipLoop nullBlock count blocks).2.length = blocks.length ∧
      ∀ index : Nat, (Manager.skipLoop nullBlock count blocks).2[index]? = blocks[index]? ∨
        (Manager.skipLoop nullBlock count blocks).2[index]? = some nullBlock := by
  induction count generalizing blocks with
  | zero => exact ⟨rfl, fun _ => Or.inl rfl⟩
  | succ last ih =>
    rw [Manager.skipLoop]
    split
    · exact ⟨rfl, fun _ => Or.inl rfl⟩
    · rename_i block found
      split
      · exact ⟨rfl, fun _ => Or.inl rfl⟩
      · obtain ⟨length, entries⟩ := ih (blocks.set last nullBlock)
        refine ⟨length.trans length_set, fun index => ?_⟩
        cases entries index with
        | inr null => exact Or.inr null
        | inl same =>
          rw [getElem?_set] at same
          by_cases here : last = index
          · rw [if_pos here] at same
            right
            rw [same, if_pos (here ▸ (List.getElem?_eq_some_iff.mp found).1)]
          · rw [if_neg here] at same
            exact Or.inl same

/-- Freed blocks only join the queue. -/
theorem free_le_of_counted {pool pool' : Pool Digest} {refs refs' : BlockId → Nat}
    (shape : SameShape pool pool') (counted : Counted pool refs fun _ => False)
    (counted' : Counted pool' refs' fun _ => False) (fewer : ∀ block, refs' block ≤ refs block) :
    pool.getNumFreeBlocks ≤ pool'.getNumFreeBlocks := by
  obtain ⟨free, holds, mem⟩ := counted.queue
  obtain ⟨free', holds', mem'⟩ := counted'.queue
  have inside : free ⊆ free' := by
    intro block member
    obtain ⟨within, real, unused, _⟩ := (mem block).mp member
    have less := fewer block
    apply (mem' block).mpr
    rw [shape.numGpuBlocks, shape.nullBlock]
    exact ⟨within, real, by omega, not_false⟩
  have length := (subperm_of_subset holds.represents.distinct inside).length_le
  rw [Pool.getNumFreeBlocks, Pool.getNumFreeBlocks, holds.count, holds'.count]
  omega

variable (manager : Manager Digest)

theorem baseRemoveSkippedBlocks_succeeds {pool : Pool Digest} {requestId : ReqId}
    (totalComputedTokens : Int) {rest : BlockId → Nat} (sound : Sound pool manager rest) :
    ∃ pool' manager', manager.baseRemoveSkippedBlocks pool requestId totalComputedTokens =
        some (pool', manager') ∧
      pool.getNumFreeBlocks ≤ pool'.getNumFreeBlocks ∧ SameHashes pool pool' ∧
      Released pool.nullBlock requestId manager manager' := by
  unfold Manager.baseRemoveSkippedBlocks
  simp only
  split
  · exact ⟨pool, manager, rfl, Int.le_refl _, SameHashes.refl pool, rfl, fun _ _ => rfl, rfl,
      fun _ => Or.inl rfl⟩
  · generalize (min (manager.getNumSkippedTokens totalComputedTokens / manager.blockSize)
      ((manager.blocksOf requestId).length : Int)).toNat = numSkippedBlocks
    have lost (block : BlockId) (real : block ≠ pool.nullBlock) :=
      skipLoop_count pool.nullBlock numSkippedBlocks (manager.blocksOf requestId) block real
    obtain ⟨final, result, same, counted⟩ := freeBlocks_counted
      (Manager.skipLoop pool.nullBlock numSkippedBlocks (manager.blocksOf requestId)).1
      sound.counted
      (fun block real => by
        have gone := lost block real
        have most := occurrences_le manager requestId block
        omega)
      (fun block real => by
        have once := sound.single requestId block real
        have gone := lost block real
        omega)
    obtain ⟨length, entries⟩ := skipLoop_entries pool.nullBlock numSkippedBlocks
      (manager.blocksOf requestId)
    rw [result]
    refine ⟨final, _, rfl, free_le_of_counted same.shape sound.counted counted
      fun block => Nat.sub_le _ _, same, rfl, ?_, ?_, ?_⟩
    · intro other different
      rw [blocksOf_set, if_neg different]
    · rw [blocksOf_set, if_pos rfl]
      exact length
    · intro index
      rw [blocksOf_set, if_pos rfl]
      exact entries index

theorem removeSkippedBlocks_succeeds {pool : Pool Digest} {requestId : ReqId}
    (managed : Managed manager.kvCacheSpec) {totalComputedTokens : Int} {rest : BlockId → Nat}
    (sound : Sound pool manager rest) :
    ∃ pool' manager', manager.removeSkippedBlocks pool requestId totalComputedTokens =
        some (pool', manager') ∧
      pool.getNumFreeBlocks ≤ pool'.getNumFreeBlocks ∧ SameHashes pool pool' ∧
      Released pool.nullBlock requestId manager manager' := by
  unfold Manager.removeSkippedBlocks
  split
  · rename_i spec kind
    rw [kind] at managed
    have notAlign : spec.mambaCacheMode ≠ .align := managed
    obtain ⟨pool', manager', removed, facts⟩ := baseRemoveSkippedBlocks_succeeds manager (max 0 (totalComputedTokens - spec.numSpeculativeBlocks)) sound
    refine ⟨pool', manager', ?_, facts⟩
    simp only [removed, if_neg notAlign]
  · exact baseRemoveSkippedBlocks_succeeds manager totalComputedTokens sound

theorem coordinator_removes (coordinator : Coordinator Digest) (requestId : ReqId)
    (totalComputedTokens : Int) (accounted : Accounted coordinator) :
    ∃ removed, coordinator.removeSkippedBlocks requestId totalComputedTokens = some removed ∧
      Accounted removed ∧ SameCoordinator coordinator removed ∧
      SameHashes coordinator.blockPool removed.blockPool ∧
      List.Forall₂ (fun manager manager' => SameManager manager manager' ∧
          Released coordinator.blockPool.nullBlock requestId manager manager')
        coordinator.singleTypeManagers removed.singleTypeManagers := by
  obtain ⟨results, pool, managers, mapped, _, _, same, _, posts⟩ :=
    mapManagers_succeeds
      (fun pool manager => (manager.removeSkippedBlocks pool requestId totalComputedTokens).map
        fun changed => ((), changed))
      (fun _ _ => 0) (Released coordinator.blockPool.nullBlock requestId) SameHashes
      SameHashes.refl (fun _ _ _ one two => one.trans two) coordinator.blockPool
      coordinator.blockPool coordinator.singleTypeManagers _
      (by
        intro manager member pool rest shape sound _
        have managed := (accounted.managed manager member).1
        obtain ⟨pool', manager', removed, free, same, released⟩ :=
          removeSkippedBlocks_succeeds manager managed sound
        obtain ⟨soundNow, shapeNow, keeps⟩ := removeSkippedBlocks_sound manager pool sound removed
        rw [shape.nullBlock] at released
        refine ⟨(), pool', manager', ?_, soundNow, shapeNow, keeps, ?_, fun _ => Nat.le_refl 0, same,
          released⟩
        · rw [removed]
          rfl
        · rw [Nat.cast_zero, Int.add_zero]
          exact free)
      (SameShape.refl _) accounted.balanced (by
        rw [map_const', sum_replicate, Pool.getNumFreeBlocks]
        obtain ⟨free, holds, _⟩ := accounted.balanced.counted.queue
        rw [holds.count]
        exact Int.natCast_nonneg _)
  have done : coordinator.removeSkippedBlocks requestId totalComputedTokens =
      some { coordinator with blockPool := pool, singleTypeManagers := managers } := by
    rw [Coordinator.removeSkippedBlocks, Coordinator.forEach, mapped]
    rfl
  obtain ⟨accountedNow, sameNow⟩ := removeSkippedBlocks_accounted coordinator requestId accounted _ done
  exact ⟨_, done, accountedNow, sameNow, same, posts⟩

/-! The estimate of one group. -/

def IsCross : KVCacheSpec → Prop
  | .crossAttention _ => True
  | _ => False

instance (spec : KVCacheSpec) : Decidable (IsCross spec) := by
  cases spec with
  | crossAttention _ => exact .isTrue trivial
  | fullAttention _ => exact .isFalse id
  | mlaAttention _ => exact .isFalse id
  | slidingWindow _ => exact .isFalse id
  | chunkedLocalAttention _ => exact .isFalse id
  | sinkFullAttention _ => exact .isFalse id
  | mamba _ => exact .isFalse id

/-- The tokens that `allocate_new_blocks` makes room for. -/
def slotTokens (manager : Manager Digest) (numTokens : Int) (numEncoderTokens : Nat) : Int :=
  match manager.kvCacheSpec with
  | .crossAttention _ => numEncoderTokens
  | .mamba spec => numTokens + manager.blockSize * spec.numSpeculativeBlocks
  | _ => numTokens

/-- The tokens that `get_num_blocks_to_allocate` counts. -/
def estimatedTokens (manager : Manager Digest) (numTokens : Int) (numEncoderTokens : Nat) : Int :=
  match manager.kvCacheSpec with
  | .crossAttention _ => numEncoderTokens
  | .mamba spec => numTokens + spec.blockSize * spec.numSpeculativeBlocks
  | _ => numTokens

/-- A group that adds the computed blocks of a new request. -/
def AddsComputed (manager : Manager Digest) (requestId : ReqId) (asked : Prop) : Prop :=
  asked ∧ ¬ IsCross manager.kvCacheSpec ∧ manager.numCachedBlock.contains requestId = false

instance (manager : Manager Digest) (requestId : ReqId) (asked : Prop) [Decidable asked] :
    Decidable (AddsComputed manager requestId asked) :=
  inferInstanceAs (Decidable (_ ∧ _ ∧ _))

def firstCost (manager : Manager Digest) (requestId : ReqId) (asked : Prop) [Decidable asked]
    (blocks : List BlockId) (numLocalComputedTokens numExternalComputedTokens : Int)
    (pool : Pool Digest) : Nat :=
  if AddsComputed manager requestId asked then
    computedCost manager blocks numLocalComputedTokens numExternalComputedTokens pool
  else 0

/-- The length of the request's table when the computed blocks are added. -/
def firstEntries (manager : Manager Digest) (requestId : ReqId) (asked : Prop) [Decidable asked]
    (blocks : List BlockId) (numLocalComputedTokens numExternalComputedTokens : Int) : Int :=
  if AddsComputed manager requestId asked then
    computedEntries manager blocks (numLocalComputedTokens + numExternalComputedTokens) +
      (externalDraw manager blocks numLocalComputedTokens numExternalComputedTokens).getD 0
  else (manager.blocksOf requestId).length

/-- The blocks that a group draws for slots after its computed blocks. -/
def secondCost (manager : Manager Digest) (requestId : ReqId) (asked : Prop) [Decidable asked]
    (blocks : List BlockId) (numLocalComputedTokens numExternalComputedTokens numTokens : Int)
    (numEncoderTokens : Nat) : Nat :=
  (cdiv (slotTokens manager numTokens numEncoderTokens) manager.blockSize -
    firstEntries manager requestId asked blocks numLocalComputedTokens
      numExternalComputedTokens).toNat

/-- What the callers of `allocate_slots` keep to for one group: only a new request, without
a table, comes with computed blocks or external tokens, and the blocks of any other request
reach up to its computed tokens. -/
structure GroupCall (manager : Manager Digest) (requestId : ReqId) (asked : Prop)
    (blocks : List BlockId) (totalComputedTokens : Int) : Prop where
  cross : IsCross manager.kvCacheSpec → blocks = []
  known : manager.numCachedBlock.contains requestId = true → blocks = []
  fresh : AddsComputed manager requestId asked → manager.blocksOf requestId = []
  covered : ¬ asked → ¬ IsCross manager.kvCacheSpec →
    manager.numCachedBlock.contains requestId = false →
      blocks = [] ∧ skippedBlocks manager totalComputedTokens ≤ (manager.blocksOf requestId).length
  caching : manager.enableCaching = true ∨ blocks = []

/-- The table entries that the estimate takes as given. -/
def givenEntries (manager : Manager Digest) (requestId : ReqId) (blocks : List BlockId)
    (totalComputedTokens : Int) : Int :=
  if manager.numCachedBlock.contains requestId then (manager.blocksOf requestId).length
  else max (skippedBlocks manager totalComputedTokens)
    (blocks.length + (manager.blocksOf requestId).length)

/-- The blocks for a group's slots are among those that the estimate counts, or there
already. -/
def Counts (manager : Manager Digest) (requestId : ReqId) (blocks : List BlockId)
    (totalComputedTokens numTokens : Int) (numEncoderTokens : Nat) : Prop :=
  cdiv (slotTokens manager numTokens numEncoderTokens) manager.blockSize ≤
    max (cdiv (estimatedTokens manager numTokens numEncoderTokens) manager.blockSize)
      (givenEntries manager requestId blocks totalComputedTokens)

theorem cdiv_mono {few many : Int} {size : Nat} (positive : 0 < size) (less : few ≤ many) :
    cdiv few size ≤ cdiv many size := by
  rw [cdiv_le_iff positive]
  exact less.trans ((cdiv_le_iff positive).mp (Int.le_refl _))

section
variable [DecidableEq Digest]

omit [DecidableEq Digest] in
theorem le_slotTokens {manager : Manager Digest} (notCross : ¬ IsCross manager.kvCacheSpec)
    {numTokens : Int} (numEncoderTokens : Nat) :
    numTokens ≤ slotTokens manager numTokens numEncoderTokens := by
  rw [slotTokens]
  split
  · rename_i kind
    rw [kind] at notCross
    exact absurd trivial notCross
  · rename_i spec kind
    have extra : (0 : Int) ≤ manager.blockSize * spec.numSpeculativeBlocks :=
      Int.mul_nonneg (Int.natCast_nonneg _) (Int.natCast_nonneg _)
    omega
  · exact Int.le_refl _

omit [DecidableEq Digest] in
/-- The estimate of the base class covers both steps of the allocation. -/
theorem base_estimate {manager : Manager Digest} (pool : Pool Digest) {requestId : ReqId}
    (managed : Managed manager.kvCacheSpec) (positive : 0 < manager.blockSize)
    (notCross : ¬ IsCross manager.kvCacheSpec) {asked : Prop} [Decidable asked]
    {blocks : List BlockId} {numLocalComputedTokens numExternalComputedTokens numTokens : Int}
    {numEncoderTokens : Nat}
    (call : GroupCall manager requestId asked blocks
      (numLocalComputedTokens + numExternalComputedTokens))
    (fits : 0 < numExternalComputedTokens →
      (blocks.length : Int) * manager.blockSize ≤ numLocalComputedTokens)
    (enough : numLocalComputedTokens + numExternalComputedTokens ≤ numTokens)
    (counts : Counts manager requestId blocks
      (numLocalComputedTokens + numExternalComputedTokens) numTokens numEncoderTokens) :
    ∃ estimate, manager.baseNumBlocksToAllocate pool requestId
        (estimatedTokens manager numTokens numEncoderTokens) blocks
        (numLocalComputedTokens + numExternalComputedTokens) = some estimate ∧
      0 ≤ estimate ∧
      (firstCost manager requestId asked blocks numLocalComputedTokens numExternalComputedTokens
          pool : Int) +
        secondCost manager requestId asked blocks numLocalComputedTokens numExternalComputedTokens
          numTokens numEncoderTokens ≤ estimate := by
  generalize whole : numLocalComputedTokens + numExternalComputedTokens = total at *
  rw [Counts, givenEntries] at counts
  rw [Manager.baseNumBlocksToAllocate, firstCost, secondCost, firstEntries]
  by_cases known : manager.numCachedBlock.contains requestId = true
  · have notNew : ¬ AddsComputed manager requestId asked := fun adds => by
      rw [adds.2.2] at known
      cases known
    rw [if_pos known] at counts
    rw [if_neg notNew, if_neg notNew, if_pos known, call.known known]
    refine ⟨_, rfl, Int.le_max_right _ _, ?_⟩
    omega
  · have unknown : manager.numCachedBlock.contains requestId = false := by
      rwa [Bool.not_eq_true] at known
    rw [if_neg known]
    have value : (some (max (cdiv (estimatedTokens manager numTokens numEncoderTokens)
          manager.blockSize - max (manager.getNumSkippedTokens total / manager.blockSize)
            (blocks.length + (manager.blocksOf requestId).length)) 0 +
          (Manager.getNumEvictableBlocks pool (blocks.drop
            (max 0 (manager.getNumSkippedTokens total / manager.blockSize -
              (manager.blocksOf requestId).length)).toNat) : Nat)) : Option Int) =
        some (max (cdiv (estimatedTokens manager numTokens numEncoderTokens)
          manager.blockSize - max (skippedBlocks manager total)
            (blocks.length + (manager.blocksOf requestId).length)) 0 +
          (Manager.getNumEvictableBlocks pool (blocks.drop
            (max 0 (skippedBlocks manager total -
              (manager.blocksOf requestId).length)).toNat) : Nat)) := rfl
    refine ⟨_, value, by omega, ?_⟩
    by_cases adds : AddsComputed manager requestId asked
    · have empty := call.fresh adds
      rw [if_pos adds, if_pos adds, empty, length_nil, computedCost, whole, keptHits]
      rw [empty, length_nil] at counts
      have dropped : (max 0 (skippedBlocks manager total - ((0 : Nat) : Int))).toNat =
          (skippedBlocks manager total).toNat := by omega
      have entries : computedEntries manager blocks total =
          max (skippedBlocks manager total) blocks.length := by
        rw [computedEntries]
        omega
      rw [dropped]
      cases drawn : externalDraw manager blocks numLocalComputedTokens
        numExternalComputedTokens with
      | none =>
        rw [getD_none]
        omega
      | some count =>
        obtain ⟨nonneg, value⟩ := externalDraw_nonneg manager managed positive blocks _ _ fits
          count drawn
        rw [whole] at value
        have more := cdiv_mono positive (enough.trans (le_slotTokens notCross numEncoderTokens))
        rw [getD_some]
        omega
    · have notAsked : ¬ asked := fun ask => adds ⟨ask, notCross, unknown⟩
      obtain ⟨nothing, covered⟩ := call.covered notAsked notCross unknown
      rw [if_neg adds, if_neg adds, nothing]
      rw [nothing] at counts
      simp only [length_nil, drop_nil, Manager.getNumEvictableBlocks, countP_nil,
        Nat.cast_zero, Int.zero_add, Int.add_zero] at counts ⊢
      omega

/-- The estimate of one group as the coordinator asks for it. -/
def groupEstimate (manager : Manager Digest) (pool : Pool Digest) (requestId : ReqId)
    (numTokens : Int) (newComputedBlocks : Option KVCacheBlocks) (numEncoderTokens : Nat)
    (totalComputedTokens numTokensMainModel : Int) : Option Int :=
  match manager.kvCacheSpec with
  | .crossAttention _ =>
    manager.getNumBlocksToAllocate pool requestId numEncoderTokens [] 0 numEncoderTokens
  | _ =>
    match blocksAt newComputedBlocks manager.kvCacheGroupId with
    | none => none
    | some blocks =>
      manager.getNumBlocksToAllocate pool requestId numTokens blocks totalComputedTokens
        numTokensMainModel

omit [DecidableEq Digest] in
theorem cross_estimate {manager : Manager Digest} {pool : Pool Digest} {requestId : ReqId}
    (cross : IsCross manager.kvCacheSpec) (asked : Prop) [Decidable asked] {blocks : List BlockId}
    {numLocalComputedTokens numExternalComputedTokens numTokens : Int} {numEncoderTokens : Nat} :
    ∃ estimate, manager.baseNumBlocksToAllocate pool requestId numEncoderTokens [] 0 =
        some estimate ∧
      0 ≤ estimate ∧
      (firstCost manager requestId asked blocks numLocalComputedTokens numExternalComputedTokens
          pool : Int) +
        secondCost manager requestId asked blocks numLocalComputedTokens numExternalComputedTokens
          numTokens numEncoderTokens ≤ estimate := by
  have never : ¬ AddsComputed manager requestId asked := fun adds => adds.2.1 cross
  have slots : slotTokens manager numTokens numEncoderTokens = numEncoderTokens := by
    cases kind : manager.kvCacheSpec with
    | crossAttention spec => rw [slotTokens, kind]
    | fullAttention spec => rw [kind] at cross; exact cross.elim
    | mlaAttention spec => rw [kind] at cross; exact cross.elim
    | slidingWindow spec => rw [kind] at cross; exact cross.elim
    | chunkedLocalAttention spec => rw [kind] at cross; exact cross.elim
    | sinkFullAttention spec => rw [kind] at cross; exact cross.elim
    | mamba spec => rw [kind] at cross; exact cross.elim
  have skipped : manager.getNumSkippedTokens 0 = 0 := by
    cases kind : manager.kvCacheSpec with
    | crossAttention spec => rw [Manager.getNumSkippedTokens, kind]
    | fullAttention spec => rw [kind] at cross; exact cross.elim
    | mlaAttention spec => rw [kind] at cross; exact cross.elim
    | slidingWindow spec => rw [kind] at cross; exact cross.elim
    | chunkedLocalAttention spec => rw [kind] at cross; exact cross.elim
    | sinkFullAttention spec => rw [kind] at cross; exact cross.elim
    | mamba spec => rw [kind] at cross; exact cross.elim
  rw [Manager.baseNumBlocksToAllocate, firstCost, secondCost, firstEntries, if_neg never, if_neg never, slots]
  by_cases known : manager.numCachedBlock.contains requestId = true
  · rw [if_pos known]
    refine ⟨_, rfl, Int.le_max_right _ _, ?_⟩
    omega
  · rw [if_neg known]
    simp only [skipped, Int.zero_ediv, length_nil, drop_nil,
      Manager.getNumEvictableBlocks, countP_nil, Nat.cast_zero, Int.zero_add, Int.add_zero]
    refine ⟨_, rfl, Int.le_max_right _ _, ?_⟩
    omega

theorem group_estimate {manager : Manager Digest} {pool : Pool Digest} {requestId : ReqId}
    (managed : Managed manager.kvCacheSpec) (positive : 0 < manager.blockSize) {asked : Prop}
    [Decidable asked] {newComputedBlocks : Option KVCacheBlocks} {blocks : List BlockId}
    (given : blocksAt newComputedBlocks manager.kvCacheGroupId = some blocks)
    {numLocalComputedTokens numExternalComputedTokens numTokens numTokensMainModel : Int}
    {numEncoderTokens : Nat}
    (call : GroupCall manager requestId asked blocks
      (numLocalComputedTokens + numExternalComputedTokens))
    (fits : 0 < numExternalComputedTokens →
      (blocks.length : Int) * manager.blockSize ≤ numLocalComputedTokens)
    (enough : numLocalComputedTokens + numExternalComputedTokens ≤ numTokens)
    (counts : Counts manager requestId blocks
      (numLocalComputedTokens + numExternalComputedTokens) numTokens numEncoderTokens) :
    ∃ estimate, groupEstimate manager pool requestId numTokens newComputedBlocks numEncoderTokens
        (numLocalComputedTokens + numExternalComputedTokens) numTokensMainModel = some estimate ∧
      0 ≤ estimate ∧ (estimate ≤ pool.numGpuBlocks →
      (firstCost manager requestId asked blocks numLocalComputedTokens numExternalComputedTokens
          pool : Int) +
        secondCost manager requestId asked blocks numLocalComputedTokens numExternalComputedTokens
          numTokens numEncoderTokens ≤ estimate) := by
  have base (notCross : ¬ IsCross manager.kvCacheSpec) :=
    base_estimate pool managed positive notCross call fits enough counts
  have plain (notCross : ¬ IsCross manager.kvCacheSpec)
      (tokens : estimatedTokens manager numTokens numEncoderTokens = numTokens) :
      ∃ estimate, manager.baseNumBlocksToAllocate pool requestId numTokens blocks
          (numLocalComputedTokens + numExternalComputedTokens) = some estimate ∧
        0 ≤ estimate ∧ (estimate ≤ pool.numGpuBlocks →
          (firstCost manager requestId asked blocks numLocalComputedTokens
              numExternalComputedTokens pool : Int) +
            secondCost manager requestId asked blocks numLocalComputedTokens
              numExternalComputedTokens numTokens numEncoderTokens ≤ estimate) := by
    obtain ⟨estimate, value, nonneg, covers⟩ := base notCross
    rw [tokens] at value
    exact ⟨estimate, value, nonneg, fun _ => covers⟩
  rw [groupEstimate]
  cases kind : manager.kvCacheSpec with
  | crossAttention spec =>
    obtain ⟨estimate, value, nonneg, covers⟩ := cross_estimate (by rw [kind]; trivial) asked
    refine ⟨estimate, ?_, nonneg, fun _ => covers⟩
    simp only [Manager.getNumBlocksToAllocate, kind]
    exact value
  | mamba spec =>
    simp only [given]
    rw [kind] at managed
    have notAlign : spec.mambaCacheMode ≠ .align := managed
    have tokens : estimatedTokens manager numTokens numEncoderTokens =
        numTokens + spec.blockSize * spec.numSpeculativeBlocks := by
      rw [estimatedTokens, kind]
    obtain ⟨estimate, value, nonneg, covers⟩ := base (by rw [kind]; exact id)
    rw [tokens] at value
    have counted : ∃ generated : Bool, manager.getNumBlocksToAllocate pool requestId numTokens
        blocks (numLocalComputedTokens + numExternalComputedTokens) numTokensMainModel =
          if generated = true then some (pool.numGpuBlocks + 1 : Int) else some estimate := by
      unfold Manager.getNumBlocksToAllocate
      simp only [kind]
      rw [if_pos notAlign, value]
      exact ⟨_, rfl⟩
    obtain ⟨generated, counted⟩ := counted
    rw [counted]
    cases generated with
    | true =>
      refine ⟨(pool.numGpuBlocks + 1 : Int), rfl, by omega, fun less => ?_⟩
      omega
    | false => exact ⟨estimate, rfl, nonneg, fun _ => covers⟩
  | fullAttention spec =>
    simp only [given, Manager.getNumBlocksToAllocate, kind]
    exact plain (by rw [kind]; exact id) (by rw [estimatedTokens, kind])
  | mlaAttention spec =>
    simp only [given, Manager.getNumBlocksToAllocate, kind]
    exact plain (by rw [kind]; exact id) (by rw [estimatedTokens, kind])
  | slidingWindow spec =>
    simp only [given, Manager.getNumBlocksToAllocate, kind]
    exact plain (by rw [kind]; exact id) (by rw [estimatedTokens, kind])
  | chunkedLocalAttention spec =>
    simp only [given, Manager.getNumBlocksToAllocate, kind]
    exact plain (by rw [kind]; exact id) (by rw [estimatedTokens, kind])
  | sinkFullAttention spec =>
    rw [kind] at managed
    exact managed.elim

/-! The whole call. -/

/-- The hits of a group, none when there is no entry for it. -/
def hitsOf (newComputedBlocks : Option KVCacheBlocks) (manager : Manager Digest) : List BlockId :=
  (blocksAt newComputedBlocks manager.kvCacheGroupId).getD []

/-- Every group of a coordinator is called as `GroupCall` says. -/
structure CoordinatorCall (coordinator : Coordinator Digest) (requestId : ReqId) (asked : Prop)
    (newComputedBlocks : Option KVCacheBlocks)
    (numLocalComputedTokens numExternalComputedTokens : Int) : Prop where
  fits : HitsFit coordinator newComputedBlocks numLocalComputedTokens numExternalComputedTokens
  groups : ∀ manager ∈ coordinator.singleTypeManagers,
    (∃ blocks, blocksAt newComputedBlocks manager.kvCacheGroupId = some blocks) ∧
      GroupCall manager requestId asked (hitsOf newComputedBlocks manager)
        (numLocalComputedTokens + numExternalComputedTokens)

omit [DecidableEq Digest] in
theorem room_for_gpu (coordinator : Coordinator Digest) (accounted : Accounted coordinator) :
    0 ≤ coordinator.blockPool.getNumFreeBlocks ∧
      coordinator.blockPool.getNumFreeBlocks ≤ coordinator.blockPool.numGpuBlocks := by
  obtain ⟨free, holds, mem⟩ := accounted.balanced.counted.queue
  have inside : free ⊆ range coordinator.blockPool.numGpuBlocks := by
    intro block member
    exact mem_range.mpr ((mem block).mp member).1
  have length := (subperm_of_subset holds.represents.distinct inside).length_le
  rw [length_range] at length
  rw [Pool.getNumFreeBlocks, holds.count]
  omega

/-- The sum of the estimates, and what it covers when it fits the pool. -/
theorem coordinator_estimate (coordinator : Coordinator Digest) (requestId : ReqId)
    (accounted : Accounted coordinator) (asked : Prop) [Decidable asked]
    (newComputedBlocks : Option KVCacheBlocks)
    (numLocalComputedTokens numExternalComputedTokens numTokens numTokensMainModel : Int)
    (numEncoderTokens : Nat)
    (call : CoordinatorCall coordinator requestId asked newComputedBlocks numLocalComputedTokens
      numExternalComputedTokens)
    (enough : numLocalComputedTokens + numExternalComputedTokens ≤ numTokens)
    (counts : ∀ manager ∈ coordinator.singleTypeManagers,
      Counts manager requestId (hitsOf newComputedBlocks manager)
        (numLocalComputedTokens + numExternalComputedTokens) numTokens numEncoderTokens) :
    ∃ estimate, coordinator.getNumBlocksToAllocate requestId numTokens newComputedBlocks
        numEncoderTokens (numLocalComputedTokens + numExternalComputedTokens)
        numTokensMainModel = some estimate ∧
      0 ≤ estimate ∧ (estimate ≤ coordinator.blockPool.numGpuBlocks →
        (((coordinator.singleTypeManagers.map fun manager =>
            firstCost manager requestId asked (hitsOf newComputedBlocks manager)
              numLocalComputedTokens numExternalComputedTokens coordinator.blockPool).sum : Nat) :
            Int) +
          ((coordinator.singleTypeManagers.map fun manager =>
            secondCost manager requestId asked (hitsOf newComputedBlocks manager)
              numLocalComputedTokens numExternalComputedTokens numTokens
              numEncoderTokens).sum : Nat) ≤ estimate) := by
  have groups : ∀ manager ∈ coordinator.singleTypeManagers, ∃ estimate,
      groupEstimate manager coordinator.blockPool requestId numTokens newComputedBlocks
          numEncoderTokens (numLocalComputedTokens + numExternalComputedTokens)
          numTokensMainModel = some estimate ∧
        0 ≤ estimate ∧ (estimate ≤ coordinator.blockPool.numGpuBlocks →
        (firstCost manager requestId asked (hitsOf newComputedBlocks manager)
            numLocalComputedTokens numExternalComputedTokens coordinator.blockPool : Int) +
          secondCost manager requestId asked (hitsOf newComputedBlocks manager)
            numLocalComputedTokens numExternalComputedTokens numTokens numEncoderTokens ≤
              estimate) := by
    intro manager member
    obtain ⟨⟨blocks, given⟩, here⟩ := call.groups manager member
    obtain ⟨managed, positive⟩ := accounted.managed manager member
    have hits : hitsOf newComputedBlocks manager = blocks := by
      rw [hitsOf, given, getD_some]
    have counted := counts manager member
    rw [hits] at here counted ⊢
    exact group_estimate managed positive given here
      (call.fits manager member blocks given).computed enough counted
  have same : coordinator.getNumBlocksToAllocate requestId numTokens newComputedBlocks
      numEncoderTokens (numLocalComputedTokens + numExternalComputedTokens) numTokensMainModel =
      (coordinator.singleTypeManagers.mapM fun manager =>
        groupEstimate manager coordinator.blockPool requestId numTokens newComputedBlocks
          numEncoderTokens (numLocalComputedTokens + numExternalComputedTokens)
          numTokensMainModel).map sum := rfl
  rw [same]
  generalize coordinator.singleTypeManagers = managers at groups
  induction managers with
  | nil => exact ⟨0, rfl, Int.le_refl 0, fun _ => Int.le_refl 0⟩
  | cons manager rest ih =>
    obtain ⟨first, value, nonneg, covers⟩ := groups manager mem_cons_self
    obtain ⟨others, total, restNonneg, coversRest⟩ := ih fun other member =>
      groups other (mem_cons_of_mem _ member)
    obtain ⟨list, listed, summed⟩ := map_eq_some_iff.mp total
    refine ⟨first + others, ?_, by omega, fun less => ?_⟩
    · rw [mapM_cons, value, listed, ← summed]
      rfl
    · rw [map_cons, sum_cons, map_cons, sum_cons]
      omega

/-- `allocate_new_computed_blocks` of one group of a coordinator. -/
def addGroup (requestId : ReqId) (newComputedBlocks : Option KVCacheBlocks)
    (numLocalComputedTokens numExternalComputedTokens : Int) (pool : Pool Digest)
    (manager : Manager Digest) : Option (Pool Digest × Manager Digest) :=
  match blocksAt newComputedBlocks manager.kvCacheGroupId with
  | none => none
  | some blocks =>
    manager.allocateNewComputedBlocks pool requestId blocks numLocalComputedTokens
      numExternalComputedTokens

/-- The computed blocks are added when the queue has room for their cost. -/
theorem coordinator_adds {coordinator : Coordinator Digest} {requestId : ReqId}
    (accounted : Accounted coordinator) {asked : Prop} [Decidable asked] (ask : asked)
    {newComputedBlocks : Option KVCacheBlocks}
    {numLocalComputedTokens numExternalComputedTokens : Int}
    (call : CoordinatorCall coordinator requestId asked newComputedBlocks numLocalComputedTokens
      numExternalComputedTokens)
    (room : (((coordinator.singleTypeManagers.map fun manager =>
        firstCost manager requestId asked (hitsOf newComputedBlocks manager)
          numLocalComputedTokens numExternalComputedTokens coordinator.blockPool).sum : Nat) :
        Int) ≤ coordinator.blockPool.getNumFreeBlocks) :
    ∃ computed, coordinator.allocateNewComputedBlocks requestId newComputedBlocks
        numLocalComputedTokens numExternalComputedTokens = some computed ∧
      Accounted computed ∧
      coordinator.blockPool.getNumFreeBlocks ≤ computed.blockPool.getNumFreeBlocks +
        ((coordinator.singleTypeManagers.map fun manager =>
          firstCost manager requestId asked (hitsOf newComputedBlocks manager)
            numLocalComputedTokens numExternalComputedTokens coordinator.blockPool).sum : Nat) ∧
      List.Forall₂ (fun manager manager' => SameManager manager manager' ∧
          ((manager'.blocksOf requestId).length : Int) =
            firstEntries manager requestId asked (hitsOf newComputedBlocks manager)
              numLocalComputedTokens numExternalComputedTokens)
        coordinator.singleTypeManagers computed.singleTypeManagers := by
  obtain ⟨results, pool, managers, mapped, _, _, _, free, posts⟩ :=
    mapManagers_succeeds
      (fun pool manager => (addGroup requestId newComputedBlocks numLocalComputedTokens
        numExternalComputedTokens pool manager).map fun changed => ((), changed))
      (fun pool manager => firstCost manager requestId asked (hitsOf newComputedBlocks manager)
        numLocalComputedTokens numExternalComputedTokens pool)
      (fun manager manager' => ((manager'.blocksOf requestId).length : Int) =
        firstEntries manager requestId asked (hitsOf newComputedBlocks manager)
          numLocalComputedTokens numExternalComputedTokens)
      (fun _ _ => True) (fun _ => trivial) (fun _ _ _ _ _ => trivial) coordinator.blockPool
      coordinator.blockPool coordinator.singleTypeManagers _
      (by
        intro manager member pool rest shape sound enough
        obtain ⟨managed, positive⟩ := accounted.managed manager member
        obtain ⟨⟨blocks, given⟩, here⟩ := call.groups manager member
        have hits : hitsOf newComputedBlocks manager = blocks := by
          rw [hitsOf, given, getD_some]
        have fit := call.fits manager member blocks given
        rw [hits] at here enough
        have fitNow : Fits pool manager blocks numLocalComputedTokens
            numExternalComputedTokens := by
          constructor
          · rw [shape.nullBlock, shape.numGpuBlocks]
            exact fit.valid
          · rw [shape.nullBlock]
            exact fit.single
          · exact fit.computed
        simp only [addGroup, given, hits]
        by_cases adds : AddsComputed manager requestId asked
        · have empty := here.fresh adds
          rw [firstCost, if_pos adds] at enough
          obtain ⟨pool', manager', added, held, left, entries⟩ := addComputedBlocks_succeeds
            manager managed positive sound fitNow here.caching enough
          obtain ⟨soundNow, shapeNow, keeps⟩ := addComputedBlocks_sound
            managed.windowed positive sound empty fitNow added
          have called : manager.allocateNewComputedBlocks pool requestId blocks
              numLocalComputedTokens numExternalComputedTokens = some (pool', manager') := by
            unfold Manager.allocateNewComputedBlocks
            split
            · rename_i spec kind
              exact absurd (by rw [kind]; trivial) adds.2.1
            · rw [adds.2.2, empty]
              exact added
          refine ⟨(), pool', manager', by rw [called]; rfl, soundNow, shapeNow, keeps, ?_, ?_,
            trivial, ?_⟩
          · rw [firstCost, if_pos adds]
            exact left
          · intro other
            rw [firstCost, firstCost]
            split
            · exact Nat.add_le_add_right (evictable_le shapeNow held _) _
            · exact Nat.le_refl 0
          · rw [firstEntries, if_pos adds]
            exact entries
        · have called : manager.allocateNewComputedBlocks pool requestId blocks
              numLocalComputedTokens numExternalComputedTokens = some (pool, manager) := by
            unfold Manager.allocateNewComputedBlocks
            split
            · rename_i spec kind
              rw [here.cross (by rw [kind]; trivial)]
              rfl
            · rename_i other
              by_cases known : manager.numCachedBlock.contains requestId = true
              · rw [if_pos known, here.known known]
                rfl
              · refine absurd ⟨ask, fun cross => ?_, by rwa [Bool.not_eq_true] at known⟩ adds
                cases kind : manager.kvCacheSpec with
                | crossAttention spec => exact other spec kind
                | fullAttention spec => rw [kind] at cross; exact cross.elim
                | mlaAttention spec => rw [kind] at cross; exact cross.elim
                | slidingWindow spec => rw [kind] at cross; exact cross.elim
                | chunkedLocalAttention spec => rw [kind] at cross; exact cross.elim
                | sinkFullAttention spec => rw [kind] at cross; exact cross.elim
                | mamba spec => rw [kind] at cross; exact cross.elim
          refine ⟨(), pool, manager, by rw [called]; rfl, sound, SameShape.refl pool,
            SameManager.refl manager, ?_, fun _ => Nat.le_refl _, trivial, ?_⟩
          · omega
          · rw [firstEntries, if_neg adds])
      (SameShape.refl _) accounted.balanced room
  have done : coordinator.allocateNewComputedBlocks requestId newComputedBlocks
      numLocalComputedTokens numExternalComputedTokens =
      some { coordinator with blockPool := pool, singleTypeManagers := managers } := by
    change coordinator.forEach (addGroup requestId newComputedBlocks numLocalComputedTokens
      numExternalComputedTokens) = _
    rw [Coordinator.forEach, mapped]
    rfl
  obtain ⟨accountedNow, _⟩ := allocateNewComputedBlocks_accounted accounted call.fits _ done
  exact ⟨_, done, accountedNow, free, posts⟩

/-- `allocate_new_blocks` of one group of a coordinator. -/
def allocateGroup (requestId : ReqId) (numTokens numTokensMainModel : Int)
    (numEncoderTokens : Nat) (pool : Pool Digest) (manager : Manager Digest) :
    Option (List BlockId × Pool Digest × Manager Digest) :=
  let numTokens : Int :=
    match manager.kvCacheSpec with
    | .crossAttention _ => numEncoderTokens
    | _ => numTokens
  manager.allocateNewBlocks pool requestId numTokens numTokensMainModel

/-- The new blocks are drawn when the queue has room for them. -/
theorem coordinator_allocates {coordinator : Coordinator Digest} {requestId : ReqId}
    (accounted : Accounted coordinator) {numTokens numTokensMainModel : Int}
    {numEncoderTokens : Nat}
    (room : (((coordinator.singleTypeManagers.map fun manager =>
        newCost manager requestId (slotTokens manager numTokens numEncoderTokens)).sum : Nat) :
        Int) ≤ coordinator.blockPool.getNumFreeBlocks) :
    ∃ newBlocks allocated, coordinator.allocateNewBlocks requestId numTokens numTokensMainModel
        numEncoderTokens = some (newBlocks, allocated) ∧
      coordinator.blockPool.getNumFreeBlocks ≤ allocated.blockPool.getNumFreeBlocks +
        ((coordinator.singleTypeManagers.map fun manager =>
          newCost manager requestId (slotTokens manager numTokens numEncoderTokens)).sum : Nat) := by
  have base (manager : Manager Digest) (managed : Managed manager.kvCacheSpec)
      (pool : Pool Digest) :
      allocateGroup requestId numTokens numTokensMainModel numEncoderTokens pool manager =
        manager.baseAllocateNewBlocks pool requestId
          (slotTokens manager numTokens numEncoderTokens) := by
    rw [slotTokens, allocateGroup, Manager.allocateNewBlocks]
    cases kind : manager.kvCacheSpec with
    | mamba spec =>
      rw [kind] at managed
      have notAlign : spec.mambaCacheMode ≠ .align := managed
      exact if_pos notAlign
    | crossAttention spec => rfl
    | fullAttention spec => rfl
    | mlaAttention spec => rfl
    | slidingWindow spec => rfl
    | chunkedLocalAttention spec => rfl
    | sinkFullAttention spec => rfl
  obtain ⟨results, pool, managers, mapped, _, _, _, free, _⟩ :=
    mapManagers_succeeds (allocateGroup requestId numTokens numTokensMainModel numEncoderTokens)
      (fun _ manager => newCost manager requestId (slotTokens manager numTokens numEncoderTokens))
      (fun _ _ => True) (fun _ _ => True) (fun _ => trivial) (fun _ _ _ _ _ => trivial)
      coordinator.blockPool coordinator.blockPool coordinator.singleTypeManagers _
      (by
        intro manager member pool rest _ sound enough
        have managed := (accounted.managed manager member).1
        obtain ⟨newBlocks, pool', manager', allocated, left⟩ := baseAllocateNewBlocks_succeeds
          manager _ sound enough
        obtain ⟨soundNow, shapeNow, keeps⟩ := baseAllocateNewBlocks_sound _ sound allocated
        exact ⟨newBlocks, pool', manager', (base manager managed pool).trans allocated, soundNow,
          shapeNow, keeps, left, fun _ => Nat.le_refl _, trivial, trivial⟩)
      (SameShape.refl _) accounted.balanced room
  refine ⟨results, { coordinator with blockPool := pool, singleTypeManagers := managers }, ?_, free⟩
  change (mapManagers (allocateGroup requestId numTokens numTokensMainModel numEncoderTokens)
    coordinator.blockPool coordinator.singleTypeManagers).map _ = _
  rw [mapped]
  rfl

end

/-! The arguments of one call. -/

def localTokens (request : Request Digest) (args : KVCacheManager.AllocateArgs) : Int :=
  request.numComputedTokens + args.numNewComputedTokens

/-- The tokens of the request that need a slot. -/
def needSlot (manager : KVCacheManager Digest) (request : Request Digest)
    (args : KVCacheManager.AllocateArgs) : Int :=
  min (localTokens request args + args.numExternalComputedTokens + args.numNewTokens +
    args.numLookaheadTokens) manager.maxModelLen

/-- The call hands in computed blocks or external tokens. -/
def Asked (args : KVCacheManager.AllocateArgs) : Prop :=
  args.newComputedBlocks ≠ none ∨ (args.numExternalComputedTokens : Int) > 0

instance (args : KVCacheManager.AllocateArgs) : Decidable (Asked args) :=
  inferInstanceAs (Decidable (_ ∨ _))

structure SlotCall (manager : KVCacheManager Digest) (request : Request Digest)
    (args : KVCacheManager.AllocateArgs) : Prop where
  someTokens : ¬ (args.numNewTokens = 0 ∧ args.numExternalComputedTokens = 0)
  within : localTokens request args + args.numExternalComputedTokens ≤ manager.maxModelLen
  groups : CoordinatorCall manager.coordinator request.requestId (Asked args)
    args.newComputedBlocks (localTokens request args) args.numExternalComputedTokens

/-- `Counts` for every group. -/
def AllCount (manager : KVCacheManager Digest) (request : Request Digest)
    (args : KVCacheManager.AllocateArgs) : Prop :=
  ∀ group ∈ manager.coordinator.singleTypeManagers,
    Counts group request.requestId (hitsOf args.newComputedBlocks group)
      (localTokens request args + args.numExternalComputedTokens) (needSlot manager request args)
      args.numEncoderTokens

/-- The releases of `remove_skipped_blocks`: null blocks in the request's tables, freed
blocks in the queue, all hashes kept. -/
structure OnlyReleased (requestId : ReqId) (coordinator removed : Coordinator Digest) : Prop where
  hashes : SameHashes coordinator.blockPool removed.blockPool
  groups : List.Forall₂ (fun manager manager' => SameManager manager manager' ∧
      Released coordinator.blockPool.nullBlock requestId manager manager')
    coordinator.singleTypeManagers removed.singleTypeManagers

/-! What a release leaves to the estimate. -/

theorem skippedBlocks_same {manager manager' : Manager Digest} (same : SameManager manager manager')
    (totalComputedTokens : Int) :
    skippedBlocks manager' totalComputedTokens = skippedBlocks manager totalComputedTokens := by
  rw [skippedBlocks, skippedBlocks, Manager.getNumSkippedTokens, Manager.getNumSkippedTokens,
    same.kvCacheSpec, same.blockSize]

theorem slotTokens_same {manager manager' : Manager Digest} (same : SameManager manager manager')
    (numTokens : Int) (numEncoderTokens : Nat) :
    slotTokens manager' numTokens numEncoderTokens =
      slotTokens manager numTokens numEncoderTokens := by
  rw [slotTokens, slotTokens, same.kvCacheSpec, same.blockSize]

theorem hitsOf_same {manager manager' : Manager Digest} (same : SameManager manager manager')
    (newComputedBlocks : Option KVCacheBlocks) :
    hitsOf newComputedBlocks manager' = hitsOf newComputedBlocks manager := by
  rw [hitsOf, hitsOf, same.kvCacheGroupId]

theorem groupCall_released {nullBlock : BlockId} {requestId : ReqId}
    {manager manager' : Manager Digest} (same : SameManager manager manager')
    (released : Released nullBlock requestId manager manager') {asked : Prop}
    {blocks : List BlockId} {totalComputedTokens : Int}
    (call : GroupCall manager requestId asked blocks totalComputedTokens) :
    GroupCall manager' requestId asked blocks totalComputedTokens := by
  constructor
  · rw [same.kvCacheSpec]
    exact call.cross
  · rw [released.numCachedBlock]
    exact call.known
  · intro adds
    rw [AddsComputed, same.kvCacheSpec, released.numCachedBlock] at adds
    have length := released.length
    rw [call.fresh adds] at length
    exact length_eq_zero_iff.mp length
  · rw [same.kvCacheSpec, released.numCachedBlock, skippedBlocks_same same, released.length]
    exact call.covered
  · rw [same.enableCaching]
    exact call.caching

theorem counts_released {nullBlock : BlockId} {requestId : ReqId}
    {manager manager' : Manager Digest} (same : SameManager manager manager')
    (released : Released nullBlock requestId manager manager') {blocks : List BlockId}
    {totalComputedTokens numTokens : Int} {numEncoderTokens : Nat}
    (counts : Counts manager requestId blocks totalComputedTokens numTokens numEncoderTokens) :
    Counts manager' requestId blocks totalComputedTokens numTokens numEncoderTokens := by
  rw [Counts, slotTokens_same same, estimatedTokens, givenEntries, same.kvCacheSpec, same.blockSize,
    released.numCachedBlock, skippedBlocks_same same, released.length]
  exact counts

theorem forall₂_source {related : Manager Digest → Manager Digest → Prop}
    {managers managers' : List (Manager Digest)} (pairs : List.Forall₂ related managers managers') :
    ∀ manager' ∈ managers', ∃ manager ∈ managers, related manager manager' := by
  induction pairs with
  | nil => simp
  | cons here _ ih =>
    intro manager' member
    cases mem_cons.mp member with
    | inl first => exact ⟨_, mem_cons_self, first ▸ here⟩
    | inr inRest =>
      obtain ⟨manager, inOld, there⟩ := ih manager' inRest
      exact ⟨manager, mem_cons_of_mem _ inOld, there⟩

theorem coordinatorCall_released {coordinator removed : Coordinator Digest} {requestId : ReqId}
    {asked : Prop} {newComputedBlocks : Option KVCacheBlocks}
    {numLocalComputedTokens numExternalComputedTokens : Int}
    (same : SameCoordinator coordinator removed)
    (released : OnlyReleased requestId coordinator removed)
    (call : CoordinatorCall coordinator requestId asked newComputedBlocks numLocalComputedTokens
      numExternalComputedTokens) :
    CoordinatorCall removed requestId asked newComputedBlocks numLocalComputedTokens
      numExternalComputedTokens := by
  constructor
  · exact hitsFit_after same call.fits
  · intro manager' member
    obtain ⟨manager, inOld, keeps, here⟩ := forall₂_source released.groups manager' member
    obtain ⟨given, groupCall⟩ := call.groups manager inOld
    rw [keeps.kvCacheGroupId, hitsOf_same keeps]
    exact ⟨given, groupCall_released keeps here groupCall⟩

section
variable [DecidableEq Digest]

omit [DecidableEq Digest] in
/-- What `allocate_new_blocks` draws once the computed blocks are in the tables. -/
theorem newCost_computed {managers managers' : List (Manager Digest)} {requestId : ReqId}
    {asked : Prop} [Decidable asked] {newComputedBlocks : Option KVCacheBlocks}
    {numLocalComputedTokens numExternalComputedTokens : Int} (numTokens : Int)
    (numEncoderTokens : Nat)
    (computed : List.Forall₂ (fun manager manager' => SameManager manager manager' ∧
          ((manager'.blocksOf requestId).length : Int) =
            firstEntries manager requestId asked (hitsOf newComputedBlocks manager)
              numLocalComputedTokens numExternalComputedTokens) managers managers') :
    (managers'.map fun manager =>
        newCost manager requestId (slotTokens manager numTokens numEncoderTokens)) =
      managers.map fun manager =>
        secondCost manager requestId asked (hitsOf newComputedBlocks manager)
          numLocalComputedTokens numExternalComputedTokens numTokens numEncoderTokens := by
  induction computed with
  | nil => rfl
  | cons here _ ih =>
    obtain ⟨same, entries⟩ := here
    rw [map_cons, map_cons, ih, newCost, secondCost, slotTokens_same same, same.blockSize, entries]

/-- The computed blocks of a call. -/
def addComputed (removed : Coordinator Digest) (request : Request Digest)
    (args : KVCacheManager.AllocateArgs) : Option (Coordinator Digest) :=
  if args.newComputedBlocks ≠ none ∨ args.numExternalComputedTokens > 0 then
    removed.allocateNewComputedBlocks request.requestId args.newComputedBlocks
      (localTokens request args) args.numExternalComputedTokens
  else some removed

/-- Both steps of the allocation go through, and take no more than the two costs. -/
theorem allocation_succeeds (removed : Coordinator Digest) (request : Request Digest)
    (args : KVCacheManager.AllocateArgs) (accounted : Accounted removed)
    (call : CoordinatorCall removed request.requestId (Asked args) args.newComputedBlocks
      (localTokens request args) args.numExternalComputedTokens)
    (numTokens numTokensMainModel : Int)
    (room : (((removed.singleTypeManagers.map fun manager =>
            firstCost manager request.requestId (Asked args) (hitsOf args.newComputedBlocks manager)
              (localTokens request args) args.numExternalComputedTokens
              removed.blockPool).sum : Nat) : Int) +
          ((removed.singleTypeManagers.map fun manager =>
            secondCost manager request.requestId (Asked args)
              (hitsOf args.newComputedBlocks manager) (localTokens request args)
              args.numExternalComputedTokens numTokens args.numEncoderTokens).sum : Nat) ≤
        removed.blockPool.getNumFreeBlocks) :
    ∃ computed newBlocks allocated, addComputed removed request args = some computed ∧
      computed.allocateNewBlocks request.requestId numTokens numTokensMainModel
        args.numEncoderTokens = some (newBlocks, allocated) ∧
      removed.blockPool.getNumFreeBlocks ≤ allocated.blockPool.getNumFreeBlocks +
        ((removed.singleTypeManagers.map fun manager =>
            firstCost manager request.requestId (Asked args) (hitsOf args.newComputedBlocks manager)
              (localTokens request args) args.numExternalComputedTokens
              removed.blockPool).sum : Nat) +
          ((removed.singleTypeManagers.map fun manager =>
            secondCost manager request.requestId (Asked args)
              (hitsOf args.newComputedBlocks manager) (localTokens request args)
              args.numExternalComputedTokens numTokens args.numEncoderTokens).sum : Nat) := by
  have first : ∃ computed, addComputed removed request args = some computed ∧ Accounted computed ∧
      removed.blockPool.getNumFreeBlocks ≤ computed.blockPool.getNumFreeBlocks +
        ((removed.singleTypeManagers.map fun manager =>
          firstCost manager request.requestId (Asked args) (hitsOf args.newComputedBlocks manager)
            (localTokens request args) args.numExternalComputedTokens
            removed.blockPool).sum : Nat) ∧
      Forall₂ (fun manager manager' => SameManager manager manager' ∧
          ((manager'.blocksOf request.requestId).length : Int) =
            firstEntries manager request.requestId (Asked args)
              (hitsOf args.newComputedBlocks manager) (localTokens request args)
              args.numExternalComputedTokens)
        removed.singleTypeManagers computed.singleTypeManagers := by
    by_cases ask : Asked args
    · have given : args.newComputedBlocks ≠ none ∨ args.numExternalComputedTokens > 0 :=
        ask.imp id (fun positive => by omega)
      obtain ⟨computed, added, facts⟩ := coordinator_adds accounted ask call (by omega)
      exact ⟨computed, (if_pos given).trans added, facts⟩
    · have missing : ¬ (args.newComputedBlocks ≠ none ∨ args.numExternalComputedTokens > 0) :=
        fun given => ask (given.imp id (fun positive => by omega))
      refine ⟨removed, if_neg missing, accounted, by omega, ?_⟩
      apply forall₂_same.mpr
      intro manager _
      exact ⟨SameManager.refl manager, by rw [firstEntries, if_neg fun adds => ask adds.1]⟩
  obtain ⟨computed, added, accountedNow, left, posts⟩ := first
  have costs := newCost_computed numTokens args.numEncoderTokens posts
  obtain ⟨newBlocks, allocated, done, rest⟩ := coordinator_allocates
    accountedNow (by rw [costs]; omega)
  rw [costs] at rest
  exact ⟨computed, newBlocks, allocated, added, done, by omega⟩

/-- The last step of a call: the new blocks are cached, unless that is off or delayed. -/
def commit (manager : KVCacheManager Digest) (request : Request Digest)
    (args : KVCacheManager.AllocateArgs) (newBlocks : KVCacheBlocks)
    (allocated : Coordinator Digest) :
    Option (Option KVCacheBlocks × KVCacheManager Digest) :=
  if manager.enableCaching = false ∨ args.delayCacheBlocks then
    some (some newBlocks, { manager with coordinator := allocated })
  else
    (allocated.cacheBlocks request
        (min (localTokens request args + args.numExternalComputedTokens + args.numNewTokens)
          request.numTokens)).map
      fun cached => (some newBlocks, { manager with coordinator := cached })

theorem allocateSlots_eq (manager : KVCacheManager Digest) (request : Request Digest)
    (args : KVCacheManager.AllocateArgs) (call : SlotCall manager request args)
    (removed : Coordinator Digest)
    (released : manager.coordinator.removeSkippedBlocks request.requestId
      (localTokens request args + args.numExternalComputedTokens) = some removed)
    (estimate : Int)
    (counted : removed.getNumBlocksToAllocate request.requestId (needSlot manager request args)
      args.newComputedBlocks args.numEncoderTokens
      (localTokens request args + args.numExternalComputedTokens)
      (localTokens request args + args.numExternalComputedTokens + args.numNewTokens) =
        some estimate) :
    manager.allocateSlots request args =
      if estimate > removed.blockPool.getNumFreeBlocks then
        some (none, { manager with coordinator := removed })
      else
        (addComputed removed request args).bind fun computed =>
          (computed.allocateNewBlocks request.requestId (needSlot manager request args)
            (localTokens request args + args.numExternalComputedTokens + args.numNewTokens)
            args.numEncoderTokens).bind fun (newBlocks, allocated) =>
              commit manager request args newBlocks allocated := by
  have whole : min (localTokens request args + args.numExternalComputedTokens)
      (manager.maxModelLen : Int) = localTokens request args + args.numExternalComputedTokens :=
    Int.min_eq_left call.within
  unfold KVCacheManager.allocateSlots
  rw [if_neg call.someTokens]
  simp only
  rw [← localTokens, whole, released]
  simp only
  rw [← needSlot, counted]
  simp only
  split
  · rfl
  · rw [← addComputed]
    cases addComputed removed request args with
    | none => rfl
    | some computed =>
      simp only [bind_some]
      cases computed.allocateNewBlocks request.requestId (needSlot manager request args)
          (localTokens request args + args.numExternalComputedTokens + args.numNewTokens)
          args.numEncoderTokens with
      | none => rfl
      | some result => rfl

end

/-- Groups whose estimate and allocation ask for the same speculative tokens. -/
theorem counts_of_same (manager : Manager Digest) (requestId : ReqId)
    (same : ∀ spec, manager.kvCacheSpec = .mamba spec →
      spec.blockSize = manager.blockSize ∨ spec.numSpeculativeBlocks = 0)
    (blocks : List BlockId) (totalComputedTokens numTokens : Int) (numEncoderTokens : Nat) :
    Counts manager requestId blocks totalComputedTokens numTokens numEncoderTokens := by
  have tokens : slotTokens manager numTokens numEncoderTokens =
      estimatedTokens manager numTokens numEncoderTokens := by
    rw [slotTokens, estimatedTokens]
    cases kind : manager.kvCacheSpec with
    | mamba spec =>
      cases same spec kind with
      | inl size => simp only [size]
      | inr none => simp only [none, Nat.cast_zero, Int.mul_zero]
    | fullAttention spec => rfl
    | mlaAttention spec => rfl
    | sinkFullAttention spec => rfl
    | slidingWindow spec => rfl
    | chunkedLocalAttention spec => rfl
    | crossAttention spec => rfl
  rw [Counts, tokens]
  exact Int.le_max_left _ _

/-! A Mamba group under decode context parallelism. -/

def mambaGroup : KVCacheConfig :=
  ⟨4, [.mamba ⟨2, [[4]], [⟨"float16", 2⟩], none, "mamba2", .none, 2⟩]⟩

def parallelManager : KVCacheManager Nat :=
  (KVCacheManager.init mambaGroup 100 2 false false false 2 1).get rfl

def sixSlots : KVCacheManager.AllocateArgs := ⟨6, 0, none, 0, 0, false, 0⟩

theorem emptyManager_reachable : Reachable emptyManager := by
  apply Reachable.init twoGroups 100 2 true false false 1 1 (by decide) _ rfl
  simp [twoGroups, Managed, KVCacheSpec.blockSize]

theorem parallelManager_reachable : Reachable parallelManager := by
  apply Reachable.init mambaGroup 100 2 false false false 2 1 (by decide) _ rfl
  simp [mambaGroup, Managed, KVCacheSpec.blockSize]

/-- A new request without computed blocks keeps to `SlotCall` in an empty manager. -/
theorem slotCall_fresh (manager : KVCacheManager Nat)
    (empty : ∀ group ∈ manager.coordinator.singleTypeManagers, skippedBlocks group 0 ≤ 0) :
    SlotCall manager sixTokenRequest sixSlots := by
  constructor
  · decide
  · exact Int.natCast_nonneg _
  · constructor
    · intro group member blocks given
      obtain rfl : [] = blocks := some.inj given
      constructor
      · intro block member
        cases member
      · intro block _
        exact Nat.zero_le 1
      · intro external
        cases external
    · intro group member
      have notSkipped := empty group member
      refine ⟨⟨[], rfl⟩, ?_⟩
      constructor
      · intro _
        rfl
      · intro _
        rfl
      · intro adds
        exact absurd adds.1 (by decide)
      · intro _ _ _
        exact ⟨rfl, notSkipped.trans (Int.natCast_nonneg _)⟩
      · exact Or.inr rfl

end VllmDcu.SlotAllocation

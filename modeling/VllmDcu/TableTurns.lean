import VllmDcu.FreeOrder
import VllmDcu.TableAccounts

/-! What a call for one request does to its table and to the pool, in a group of any kind. -/
namespace VllmDcu.TableTurns
open Requests FreeBlockQueue BlockPool KVCacheInterface MathUtils SingleTypeManager
open PoolCache PoolAccounts TableAccounts KVEvents FreeOrder List Option Dict

variable {Digest : Type}

/-- A table none of whose blocks is listed twice or free. -/
structure Ready (pool : Pool Digest) (table : List BlockId) : Prop where
  queue : ∃ free, Queued pool free
  single : Single pool.nullBlock table
  used : ∀ block, block ≠ pool.nullBlock →
    (table.count block : Int) ≤ (pool.blocks block).refCnt

/-- The references follow a table from `before` to `after`; a block that is new to the table was
free. -/
structure Moved (pool pool' : Pool Digest) (before after : List BlockId) : Prop where
  shape : SameShape pool pool'
  queue : ∃ free, Queued pool' free
  counts : ∀ block, block ≠ pool.nullBlock →
    (pool'.blocks block).refCnt + before.count block =
      (pool.blocks block).refCnt + after.count block
  fresh : ∀ block, block ≠ pool.nullBlock → after.count block ≤ before.count block ∨
    (pool.blocks block).refCnt = 0 ∧ after.count block ≤ 1

theorem Moved.ready {pool pool' : Pool Digest} {before after : List BlockId}
    (moved : Moved pool pool' before after) (ready : Ready pool before) : Ready pool' after := by
  constructor
  · exact moved.queue
  · intro block real
    rw [moved.shape.nullBlock] at real
    rcases moved.fresh block real with kept | ⟨-, once⟩
    · exact Nat.le_trans kept (ready.single block real)
    · exact once
  · intro block real
    rw [moved.shape.nullBlock] at real
    have counts := moved.counts block real
    have used := ready.used block real
    omega

theorem Moved.trans {first second third : Pool Digest} {before middle after : List BlockId}
    (one : Moved first second before middle) (two : Moved second third middle after)
    (ready : Ready first before) : Moved first third before after := by
  have null := one.shape.nullBlock
  constructor
  · exact one.shape.trans two.shape
  · exact two.queue
  · intro block real
    have here := one.counts block real
    have there := two.counts block (by rwa [null])
    omega
  · intro block real
    have here := one.counts block real
    have used := ready.used block real
    rcases one.fresh block real with kept | ⟨unused, once⟩
    · rcases two.fresh block (by rwa [null]) with keptNow | ⟨unusedNow, onceNow⟩
      · exact Or.inl (Nat.le_trans keptNow kept)
      · omega
    · rcases two.fresh block (by rwa [null]) with keptNow | ⟨-, onceNow⟩
      · exact Or.inr ⟨unused, Nat.le_trans keptNow once⟩
      · exact Or.inr ⟨unused, onceNow⟩

variable (pool : Pool Digest)

/-- The table is only rearranged or padded, and the pool keeps its counts. -/
theorem moved_same {pool' : Pool Digest} {before after : List BlockId} (ready : Ready pool before)
    (same : SameCounts pool pool')
    (counts : ∀ block, block ≠ pool.nullBlock → after.count block = before.count block) :
    Moved pool pool' before after := by
  obtain ⟨free, queued⟩ := ready.queue
  constructor
  · exact same.shape
  · exact ⟨free, queued_frame pool queued same⟩
  · intro block real
    rw [same.counts, counts block real]
  · exact fun block real => Or.inl (Nat.le_of_eq (counts block real))

/-- The references never fall and referenced blocks keep their hashes. -/
structure Grown (pool pool' : Pool Digest) : Prop where
  shape : SameShape pool pool'
  counts : ∀ block, (pool.blocks block).refCnt ≤ (pool'.blocks block).refCnt
  hashes : KeepsHashes pool pool'

theorem Grown.refl : Grown pool pool :=
  ⟨SameShape.refl pool, fun _ => le_refl _, fun _ _ _ _ => rfl⟩

theorem taken_moved [DecidableEq Digest] {pool pool' : Pool Digest} {table ids : List BlockId} {numBlocks : Int}
    (nonneg : 0 ≤ numBlocks) (ready : Ready pool table)
    (got : pool.getNewBlocks numBlocks = some (ids, pool')) :
    Moved pool pool' table (table ++ ids) ∧ Grown pool pool' := by
  obtain ⟨free, queued⟩ := ready.queue
  obtain ⟨front, queuedNow, shape, counts, hashes⟩ := getNewBlocks_queued nonneg queued got
  have inFree : ∀ block ∈ ids, block ∈ free := by
    rw [front]
    exact fun block => mem_of_mem_take
  constructor
  · constructor
    · exact shape
    · exact ⟨_, queuedNow⟩
    · intro block _
      rw [counts, count_append]
      omega
    · intro block real
      rw [count_append]
      by_cases taken : block ∈ ids
      · have unused := (queued.unused block (inFree block taken)).2
        have used := ready.used block real
        have once : ids.count block ≤ 1 := by
          rw [front]
          exact nodup_iff_count_le_one.mp
            (queued.holds.represents.distinct.sublist (take_sublist _ _)) block
        exact Or.inr ⟨unused, by omega⟩
      · rw [count_eq_zero.mpr taken]
        exact Or.inl (le_refl _)
  · constructor
    · exact shape
    · intro block
      rw [counts]
      omega
    · intro block _ used _
      apply hashes
      intro taken
      have unused := (queued.unused block (inFree block taken)).2
      omega

/-- What is returned goes to the end of the queue. -/
def Returns (pool pool' : Pool Digest) (held : BlockId → Prop) : Prop :=
  ∀ free, Queued pool free → ∃ back, Queued pool' (free ++ back) ∧
    ∀ block ∈ back, held block ∧ block ≠ pool.nullBlock

theorem returns_refl (held : BlockId → Prop) : Returns pool pool held := by
  intro free queued
  exact ⟨[], by rwa [append_nil], by simp⟩

theorem Returns.trans {first second third : Pool Digest} {held : BlockId → Prop}
    (one : Returns first second held) (two : Returns second third held)
    (null : second.nullBlock = first.nullBlock) : Returns first third held := by
  intro free queued
  obtain ⟨back, queuedOne, heldOne⟩ := one free queued
  obtain ⟨more, queuedTwo, heldTwo⟩ := two _ queuedOne
  refine ⟨back ++ more, by rwa [← append_assoc], ?_⟩
  intro block member
  rcases mem_append.mp member with early | late
  · exact heldOne block early
  · rw [← null]
    exact heldTwo block late

theorem Returns.mono {pool pool' : Pool Digest} {held held' : BlockId → Prop}
    (returns : Returns pool pool' held)
    (more : ∀ block, block ≠ pool.nullBlock → held block → held' block) :
    Returns pool pool' held' := by
  intro free queued
  obtain ⟨back, queuedNow, heldNow⟩ := returns free queued
  refine ⟨back, queuedNow, fun block member => ?_⟩
  obtain ⟨listed, real⟩ := heldNow block member
  exact ⟨more block real listed, real⟩

theorem returned_moved {pool' : Pool Digest} (before after removed : List BlockId)
    (ready : Ready pool before)
    (split : ∀ block, block ≠ pool.nullBlock →
      removed.count block + after.count block = before.count block)
    (freed : pool.freeBlocks removed = some pool') :
    Moved pool pool' before after ∧ SameHashes pool pool' ∧
      Returns pool pool' (fun block => block ∈ before) := by
  have once : ∀ block, block ≠ pool.nullBlock → removed.count block ≤ 1 := by
    intro block real
    have := split block real
    have := ready.single block real
    omega
  have used : ∀ block ∈ removed, block ≠ pool.nullBlock → 0 < (pool.blocks block).refCnt := by
    intro block member real
    have := split block real
    have := count_pos_iff.mpr member
    have := ready.used block real
    omega
  have hashes := (freeBlocks_quiet pool pool' freed).hashes
  obtain ⟨free, queued⟩ := ready.queue
  obtain ⟨⟨back, queuedNow, -⟩, counts⟩ := freeBlocks_queued pool queued once used freed
  refine ⟨⟨hashes.shape, ⟨_, queuedNow⟩, ?_, ?_⟩, hashes, ?_⟩
  · intro block real
    have := split block real
    rw [counts]
    omega
  · intro block real
    have := split block real
    exact Or.inl (by omega)
  · intro free queued
    obtain ⟨⟨back, queuedNow, member⟩, -⟩ := freeBlocks_queued pool queued once used freed
    refine ⟨back, queuedNow, fun block inBack => ?_⟩
    obtain ⟨listed, real⟩ := member block inBack
    have := split block real
    have := count_pos_iff.mpr listed
    exact ⟨count_pos_iff.mp (by omega), real⟩

/-! The calls on a manager. -/

/-- A call for one request that leaves the tables of all others as they are. -/
structure Turn (requestId : ReqId) (pool pool' : Pool Digest) (manager manager' : Manager Digest) :
    Prop where
  moved : Moved pool pool' (manager.blocksOf requestId) (manager'.blocksOf requestId)
  others : ∀ other, other ≠ requestId → manager'.blocksOf other = manager.blocksOf other
  total : ∀ block, occurrences manager' block + (manager.blocksOf requestId).count block =
    occurrences manager block + (manager'.blocksOf requestId).count block
  same : SameManager manager manager'

variable (requestId : ReqId)

theorem turn_setBlocks {pool pool' : Pool Digest} {manager manager' : Manager Digest}
    {blocks : List BlockId} (moved : Moved pool pool' (manager.blocksOf requestId) blocks)
    (tables : manager'.reqToBlocks = (manager.setBlocks requestId blocks).reqToBlocks)
    (same : SameManager manager manager') :
    Turn requestId pool pool' manager manager' ∧ manager'.blocksOf requestId = blocks := by
  have now (other : ReqId) : manager'.blocksOf other =
      if other = requestId then blocks else manager.blocksOf other := by
    rw [blocksOf_frame tables, blocksOf_set]
  have here : manager'.blocksOf requestId = blocks := by rw [now, if_pos rfl]
  refine ⟨⟨?_, ?_, ?_, same⟩, here⟩
  · rwa [here]
  · intro other differs
    rw [now, if_neg differs]
  · intro block
    rw [occurrences_frame tables, here]
    exact occurrences_set manager requestId blocks block

/-- A call that does not touch the tables. -/
theorem turn_same {pool pool' : Pool Digest} {manager manager' : Manager Digest}
    (ready : Ready pool (manager.blocksOf requestId)) (counts : SameCounts pool pool')
    (tables : ∀ other, manager'.blocksOf other = manager.blocksOf other)
    (total : ∀ block, occurrences manager' block = occurrences manager block)
    (same : SameManager manager manager') : Turn requestId pool pool' manager manager' := by
  constructor
  · rw [tables]
    exact moved_same pool ready counts fun _ _ => rfl
  · exact fun other _ => tables other
  · intro block
    rw [total, tables]
  · exact same

theorem Turn.trans {requestId : ReqId} {first second third : Pool Digest}
    {manager middle last : Manager Digest} (one : Turn requestId first second manager middle)
    (two : Turn requestId second third middle last)
    (ready : Ready first (manager.blocksOf requestId)) :
    Turn requestId first third manager last := by
  constructor
  · exact one.moved.trans two.moved ready
  · exact fun other differs => (two.others other differs).trans (one.others other differs)
  · intro block
    have here := one.total block
    have there := two.total block
    omega
  · exact one.same.trans two.same

variable (manager manager' : Manager Digest)

theorem free_turn {pool pool' : Pool Digest} {requestId : ReqId}
    (ready : Ready pool (manager.blocksOf requestId))
    (freed : manager.free pool requestId = some (pool', manager')) :
    Turn requestId pool pool' manager manager' := by
  obtain ⟨final, result, same⟩ := map_eq_some_iff.mp freed
  obtain ⟨rfl, rfl⟩ := Prod.mk.inj same
  have table (other : ReqId) : Manager.blocksOf { manager with
      reqToBlocks := manager.reqToBlocks.erase requestId } other =
        if other = requestId then [] else manager.blocksOf other := by
    simp only [Manager.blocksOf, get?_erase]
    by_cases here : other = requestId
    · simp [here]
    · simp [here]
  have gone : Manager.blocksOf { manager with
      reqToBlocks := manager.reqToBlocks.erase requestId } requestId = [] := by
    rw [table, if_pos rfl]
  have moved := (returned_moved pool (manager.blocksOf requestId) []
    (manager.blocksOf requestId).reverse ready (by simp) result).1
  refine ⟨?_, ?_, ?_, rfl, rfl, rfl, rfl⟩
  · rw [← gone] at moved
    exact moved
  · intro other differs
    exact (table other).trans (if_neg differs)
  · intro block
    have erased := total_erase (fun blocks => blocks.count block) manager.reqToBlocks requestId
    rw [blocksOf_measure] at erased
    change total (fun blocks => blocks.count block) (manager.reqToBlocks.erase requestId) +
      _ = occurrences manager block + (Manager.blocksOf { manager with
        reqToBlocks := manager.reqToBlocks.erase requestId } requestId).count block
    rw [gone, count_nil, occurrences]
    omega

/-! Skipped blocks. -/

/-- What giving up skipped blocks does. -/
structure Shed (requestId : ReqId) (pool pool' : Pool Digest) (manager manager' : Manager Digest) :
    Prop where
  turn : Turn requestId pool pool' manager manager'
  hashes : SameHashes pool pool'
  returns : Returns pool pool' fun block => block ∈ manager.blocksOf requestId
  cached : manager'.numCachedBlock = manager.numCachedBlock

theorem shed_refl {pool : Pool Digest} {manager : Manager Digest}
    (ready : Ready pool (manager.blocksOf requestId)) :
    Shed requestId pool pool manager manager :=
  ⟨turn_same requestId ready (SameCounts.refl pool) (fun _ => rfl)
    (fun _ => rfl) (SameManager.refl manager), SameHashes.refl pool, returns_refl pool _, rfl⟩

theorem shed_blocks {pool pool' : Pool Digest} {manager : Manager Digest}
    {removed blocks : List BlockId} (ready : Ready pool (manager.blocksOf requestId))
    (split : ∀ block, block ≠ pool.nullBlock →
      removed.count block + blocks.count block = (manager.blocksOf requestId).count block)
    (freed : pool.freeBlocks removed = some pool') :
    Shed requestId pool pool' manager (manager.setBlocks requestId blocks) := by
  obtain ⟨moved, hashes, returns⟩ :=
    returned_moved pool (manager.blocksOf requestId) blocks removed ready split freed
  exact ⟨(turn_setBlocks requestId
    moved rfl (setBlocks_same manager requestId blocks)).1, hashes, returns, rfl⟩

theorem Shed.trans {requestId : ReqId} {first second third : Pool Digest}
    {manager middle last : Manager Digest} (one : Shed requestId first second manager middle)
    (two : Shed requestId second third middle last)
    (ready : Ready first (manager.blocksOf requestId))
    (fewer : ∀ block, block ≠ first.nullBlock → block ∈ middle.blocksOf requestId →
      block ∈ manager.blocksOf requestId) :
    Shed requestId first third manager last := by
  have null := one.turn.moved.shape.nullBlock
  refine ⟨one.turn.trans two.turn ready, one.hashes.trans two.hashes, ?_,
    two.cached.trans one.cached⟩
  apply one.returns.trans (two.returns.mono ?_) null
  intro block real
  exact fewer block (by rwa [← null])

theorem baseRemoveSkippedBlocks_shed {pool pool' : Pool Digest} {requestId : ReqId}
    {totalComputedTokens : Int} (ready : Ready pool (manager.blocksOf requestId))
    (removed : manager.baseRemoveSkippedBlocks pool requestId totalComputedTokens =
      some (pool', manager')) :
    Shed requestId pool pool' manager manager' ∧
      ∀ block, block ≠ pool.nullBlock → block ∈ manager'.blocksOf requestId →
        block ∈ manager.blocksOf requestId := by
  unfold Manager.baseRemoveSkippedBlocks at removed
  simp only at removed
  split at removed
  · obtain ⟨rfl, rfl⟩ : pool = pool' ∧ manager = manager' := by simpa using removed
    exact ⟨shed_refl requestId ready, fun _ _ listed => listed⟩
  · generalize (min (manager.getNumSkippedTokens totalComputedTokens / manager.blockSize)
      ((manager.blocksOf requestId).length : Int)).toNat = numSkippedBlocks at removed
    have lost := skipLoop_count pool.nullBlock numSkippedBlocks (manager.blocksOf requestId)
    obtain ⟨final, freed, same⟩ := map_eq_some_iff.mp removed
    obtain ⟨rfl, rfl⟩ := Prod.mk.inj same
    refine ⟨shed_blocks requestId ready lost freed, ?_⟩
    intro block real listed
    rw [blocksOf_set, if_pos rfl] at listed
    have := lost block real
    have := count_pos_iff.mpr listed
    exact count_pos_iff.mp (by omega)

theorem freeLastStateBlock_shed {pool pool' : Pool Digest} {requestId : ReqId}
    (numComputedTokens : Int) (ready : Ready pool (manager.blocksOf requestId))
    (removed : manager.freeLastStateBlock pool requestId numComputedTokens =
      some (pool', manager')) : Shed requestId pool pool' manager manager' := by
  unfold Manager.freeLastStateBlock at removed
  split at removed
  · obtain ⟨rfl, rfl⟩ : pool = pool' ∧ manager = manager' := by simpa using removed
    exact shed_refl requestId ready
  · split at removed
    · simp only at removed
      split at removed
      · contradiction
      · rename_i block found
        split at removed
        · obtain ⟨rfl, rfl⟩ : pool = pool' ∧ manager = manager' := by simpa using removed
          exact shed_refl requestId ready
        · obtain ⟨final, freed, same⟩ := map_eq_some_iff.mp removed
          obtain ⟨rfl, rfl⟩ := Prod.mk.inj same
          have null := (freeBlocks_quiet pool final freed).hashes.shape.nullBlock
          rw [null]
          exact shed_blocks requestId ready
            (fun other realOther =>
              count_cleared found realOther) freed
    · obtain ⟨rfl, rfl⟩ : pool = pool' ∧ manager = manager' := by simpa using removed
      exact shed_refl requestId ready

theorem removeSkippedBlocks_shed {pool pool' : Pool Digest} {requestId : ReqId}
    {totalComputedTokens : Int} (ready : Ready pool (manager.blocksOf requestId))
    (removed : manager.removeSkippedBlocks pool requestId totalComputedTokens =
      some (pool', manager')) : Shed requestId pool pool' manager manager' := by
  unfold Manager.removeSkippedBlocks at removed
  split at removed
  · simp only at removed
    split at removed
    · contradiction
    · rename_i middle manager₁ base
      obtain ⟨shed, fewer⟩ := baseRemoveSkippedBlocks_shed manager manager₁ ready base
      split at removed
      · exact shed.trans (freeLastStateBlock_shed manager₁ manager' _
          (shed.turn.moved.ready ready) removed) ready fewer
      · obtain ⟨rfl, rfl⟩ : middle = pool' ∧ manager₁ = manager' := by simpa using removed
        exact shed
  · exact (baseRemoveSkippedBlocks_shed manager manager' ready removed).1

/-! New blocks. -/

section
variable [DecidableEq Digest]

/-- All that allocating new blocks does: the entries of the table are rearranged or padded, and new
blocks are appended. -/
structure Allocation (requestId : ReqId) (pool pool' : Pool Digest) (manager manager' : Manager Digest)
    (arranged ids : List BlockId) : Prop where
  counts : ∀ block, block ≠ pool.nullBlock →
    arranged.count block = (manager.blocksOf requestId).count block
  got : ids = [] ∧ pool' = pool ∨
    ∃ numBlocks, 0 ≤ numBlocks ∧ pool.getNewBlocks numBlocks = some (ids, pool')
  tables : manager'.reqToBlocks = (manager.setBlocks requestId (arranged ++ ids)).reqToBlocks
  same : SameManager manager manager'

theorem baseAllocateNewBlocks_cases {manager manager' : Manager Digest} {pool pool' : Pool Digest}
    {requestId : ReqId} {numTokens : Int} {newBlocks : List BlockId}
    (allocated : manager.baseAllocateNewBlocks pool requestId numTokens =
      some (newBlocks, pool', manager')) :
    ∃ arranged ids, Allocation requestId pool pool' manager manager' arranged ids := by
  unfold Manager.baseAllocateNewBlocks at allocated
  simp only at allocated
  split at allocated
  · obtain ⟨-, rfl, rfl⟩ := allocated
    exact ⟨manager.blocksOf requestId, [], fun _ _ => rfl, Or.inl ⟨rfl, rfl⟩,
      by rw [append_nil], setBlocks_same manager requestId _⟩
  · obtain ⟨⟨ids, final⟩, got, same⟩ := map_eq_some_iff.mp allocated
    obtain ⟨-, rfl, rfl⟩ := same
    obtain ⟨tables, -, noted⟩ := noteNewBlocks_frame
      (manager.setBlocks requestId (manager.blocksOf requestId ++ ids)) ids
    exact ⟨manager.blocksOf requestId, ids, fun _ _ => rfl, Or.inr ⟨_, by omega, got⟩, tables,
      (setBlocks_same manager requestId _).trans noted⟩

omit [DecidableEq Digest] in
/-- Moving entries to the end leaves every block as often as it was. -/
theorem reuseLoop_count (nullBlock : BlockId) (numSkippedBlocks : Int) (indices : List Int)
    (blocks : List BlockId) (block : BlockId) (real : block ≠ nullBlock) :
    (Manager.reuseLoop nullBlock numSkippedBlocks indices blocks).count block =
      blocks.count block := by
  induction indices generalizing blocks with
  | nil => rfl
  | cons index indices ih =>
    unfold Manager.reuseLoop
    split
    · split
      · rfl
      · rename_i moved found
        obtain ⟨inside, here⟩ := List.getElem?_eq_some_iff.mp found
        have longer : index.toNat < (blocks ++ [moved]).length := by
          rw [length_append]
          omega
        have entry : (blocks ++ [moved])[index.toNat] = moved := by
          rw [getElem_append_left inside, here]
        rw [ih, count_set longer, entry, count_append, count_one]
        by_cases same : block = moved
        · subst same
          simp only [↓reduceIte, beq_self_eq_true, beq_iff_eq, Ne.symm real]
          omega
        · simp only [same, ↓reduceIte, beq_iff_eq, Ne.symm same, Ne.symm real]
          omega
    · rfl

omit [DecidableEq Digest] in
/-- Only indices below the skipped blocks move an entry. -/
theorem reuseLoop_length (nullBlock : BlockId) (numSkippedBlocks start : Int) (count : Nat)
    (blocks : List BlockId) :
    ((Manager.reuseLoop nullBlock numSkippedBlocks
        ((List.range count).map fun (offset : Nat) => start + (offset : Int)) blocks).length : Int) ≤
      blocks.length + max 0 (min (count : Int) (numSkippedBlocks - start)) := by
  induction count generalizing start blocks with
  | zero =>
    change (blocks.length : Int) ≤ _
    omega
  | succ count ih =>
    have shifted : (range (count + 1)).map (fun (offset : Nat) => start + (offset : Int)) =
        start :: (range count).map fun (offset : Nat) => (start + 1) + (offset : Int) := by
      rw [range_succ_eq_map, map_cons, List.map_map]
      congr 1
      · simp
      · apply map_congr_left
        intro offset _
        show start + ((offset + 1 : Nat) : Int) = start + 1 + (offset : Int)
        omega
    rw [shifted]
    unfold Manager.reuseLoop
    split
    · split
      · omega
      · rename_i moved _
        have rest := ih (start + 1) ((blocks ++ [moved]).set start.toNat nullBlock)
        rw [length_set, length_append, length_singleton] at rest
        omega
    · omega

omit [DecidableEq Digest] in
theorem range_cast (count : Nat) (start : Int) :
    (do let offset ← List.range count
        pure (offset : Int)).map (fun offset => start + offset) =
      (List.range count).map fun (offset : Nat) => start + (offset : Int) := by
  rw [bind_pure_comp, List.map_eq_map, List.map_map]
  rfl

theorem alignAllocateNewBlocks_cases {manager manager' : Manager Digest} {spec : MambaSpec}
    {pool pool' : Pool Digest} {requestId : ReqId} {numTokens : Int} {newBlocks : List BlockId}
    (allocated : manager.alignAllocateNewBlocks spec pool requestId numTokens =
      some (newBlocks, pool', manager')) :
    ∃ arranged ids, Allocation requestId pool pool' manager manager' arranged ids := by
  unfold Manager.alignAllocateNewBlocks at allocated
  simp only [range_cast] at allocated
  split at allocated
  · obtain ⟨-, rfl, rfl⟩ := allocated
    exact ⟨manager.blocksOf requestId, [], fun _ _ => rfl, Or.inl ⟨rfl, rfl⟩,
      by rw [append_nil], setBlocks_same manager requestId _⟩
  · split at allocated
    · contradiction
    · rename_i differs notLess
      let table := manager.blocksOf requestId
      let numRequiredBlocks := cdiv numTokens manager.blockSize + spec.numSpeculativeBlocks
      let numSkippedBlocks := numRequiredBlocks - spec.numSpeculativeBlocks - 1
      let padded := table ++
        replicate (numSkippedBlocks - (table.length : Int)).toNat pool.nullBlock
      let indices := (range spec.numSpeculativeBlocks).map fun (offset : Nat) =>
        (table.length : Int) - spec.numSpeculativeBlocks + (offset : Int)
      let reused :=
        if decide (requestId ∈ manager.allocatedBlockReqs) = true then
          Manager.reuseLoop pool.nullBlock numSkippedBlocks indices padded
        else padded
      have counts : ∀ block, block ≠ pool.nullBlock → reused.count block = table.count block := by
        intro block real
        have padding : padded.count block = table.count block := by
          rw [count_append, count_replicate]
          simp [Ne.symm real]
        by_cases before : decide (requestId ∈ manager.allocatedBlockReqs) = true
        · rw [show reused = _ from if_pos before, reuseLoop_count _ _ _ _ _ real, padding]
        · rw [show reused = _ from if_neg before, padding]
      -- Never more entries than required, so some blocks are missing.
      have fewer : (table.length : Int) < numRequiredBlocks := by
        change ¬ numRequiredBlocks = (table.length : Int) at differs
        change ¬ numRequiredBlocks < (table.length : Int) at notLess
        omega
      have room : (0 : Int) ≤ numRequiredBlocks - reused.length := by
        have paddedLength : (padded.length : Int) = max (table.length : Int) numSkippedBlocks := by
          simp only [padded, length_append, length_replicate]
          omega
        by_cases before : decide (requestId ∈ manager.allocatedBlockReqs) = true
        · have length : ((Manager.reuseLoop pool.nullBlock numSkippedBlocks indices
              padded).length : Int) ≤ _ := reuseLoop_length pool.nullBlock numSkippedBlocks
            ((table.length : Int) - spec.numSpeculativeBlocks) spec.numSpeculativeBlocks padded
          rw [show reused = _ from if_pos before]
          omega
        · rw [show reused = _ from if_neg before]
          omega
      by_cases many : numRequiredBlocks - (reused.length : Int) >
          (if decide (requestId ∈ manager.allocatedBlockReqs) = true then 1
            else (spec.numSpeculativeBlocks : Int) + 1)
      · rw [if_pos many] at allocated
        contradiction
      · rw [if_neg many] at allocated
        obtain ⟨⟨ids, final⟩, got, same⟩ := map_eq_some_iff.mp allocated
        obtain ⟨-, rfl, rfl⟩ := same
        exact ⟨reused, ids, counts, Or.inr ⟨_, room, got⟩, rfl, rfl, rfl, rfl, rfl⟩

theorem allocateNewBlocks_cases {manager manager' : Manager Digest} {pool pool' : Pool Digest}
    {requestId : ReqId} {numTokens numTokensMainModel : Int} {newBlocks : List BlockId}
    (allocated : manager.allocateNewBlocks pool requestId numTokens numTokensMainModel =
      some (newBlocks, pool', manager')) :
    ∃ arranged ids, Allocation requestId pool pool' manager manager' arranged ids := by
  unfold Manager.allocateNewBlocks at allocated
  split at allocated
  · split at allocated
    · exact baseAllocateNewBlocks_cases allocated
    · exact alignAllocateNewBlocks_cases
        allocated
  · exact baseAllocateNewBlocks_cases allocated

theorem Allocation.turn {requestId : ReqId} {pool pool' : Pool Digest}
    {manager manager' : Manager Digest} {arranged ids : List BlockId}
    (allocation : Allocation requestId pool pool' manager manager' arranged ids)
    (ready : Ready pool (manager.blocksOf requestId)) :
    Turn requestId pool pool' manager manager' ∧ Grown pool pool' := by
  have rearranged := moved_same pool ready (SameCounts.refl pool) allocation.counts
  have both : Moved pool pool' arranged (arranged ++ ids) ∧ Grown pool pool' := by
    rcases allocation.got with ⟨nothing, kept⟩ | ⟨numBlocks, nonneg, got⟩
    · rw [nothing, kept, append_nil]
      exact ⟨moved_same pool (rearranged.ready ready) (SameCounts.refl pool)
        fun _ _ => rfl, Grown.refl pool⟩
    · exact taken_moved nonneg (rearranged.ready ready) got
  exact ⟨(turn_setBlocks requestId (rearranged.trans both.1 ready)
    allocation.tables allocation.same).1, both.2⟩

/-- The accounts follow whatever an allocation does to the table. -/
theorem Allocation.sound {requestId : ReqId} {pool pool' : Pool Digest}
    {manager manager' : Manager Digest} {arranged ids : List BlockId}
    (allocation : Allocation requestId pool pool' manager manager' arranged ids)
    (rest : BlockId → Nat) (sound : Sound pool manager rest) :
    Sound pool' manager' rest ∧ SameShape pool pool' ∧ SameManager manager manager' := by
  have rearranged : Sound pool (manager.setBlocks requestId arranged) rest := by
    apply sound_setBlocks pool sound rfl sound.hashed sound.counted
    · intro block real
      rw [allocation.counts block real]
      exact sound.single requestId block real
    · intro block real
      rw [allocation.counts block real]
  have table : (manager.setBlocks requestId arranged).blocksOf requestId = arranged := by
    rw [blocksOf_set, if_pos rfl]
  have tables : manager'.reqToBlocks =
      ((manager.setBlocks requestId arranged).setBlocks requestId (arranged ++ ids)).reqToBlocks := by
    rw [allocation.tables]
    exact (Dict.set_set manager.reqToBlocks requestId arranged (arranged ++ ids)).symm
  rcases allocation.got with ⟨nothing, kept⟩ | ⟨numBlocks, nonneg, got⟩
  · subst kept
    refine ⟨?_, SameShape.refl pool', allocation.same⟩
    apply sound_frame pool' rearranged
    rw [allocation.tables, nothing, append_nil]
  · rw [← Int.toNat_of_nonneg nonneg] at got
    obtain ⟨soundNow, shape⟩ := append_sound rearranged got
    rw [table] at soundNow
    exact ⟨sound_frame pool' soundNow tables, shape, allocation.same⟩

theorem allocateNewBlocks_sound {manager : Manager Digest} {pool : Pool Digest} {requestId : ReqId}
    {numTokens numTokensMainModel : Int} {rest : BlockId → Nat} (sound : Sound pool manager rest)
    {newBlocks : List BlockId} {pool' : Pool Digest} {manager' : Manager Digest}
    (allocated : manager.allocateNewBlocks pool requestId numTokens numTokensMainModel =
      some (newBlocks, pool', manager')) :
    Sound pool' manager' rest ∧ SameShape pool pool' ∧ SameManager manager manager' := by
  obtain ⟨arranged, ids, allocation⟩ := allocateNewBlocks_cases allocated
  exact allocation.sound rest sound

/-! Caching. -/

theorem baseCacheBlocks_frame {manager manager' : Manager Digest} {pool pool' : Pool Digest}
    {request : Request Digest} {numTokens : Int}
    (cached : manager.baseCacheBlocks pool request numTokens = some (pool', manager')) :
    SameCounts pool pool' ∧ KeepsHashes pool pool' ∧
      (∀ requestId, manager'.blocksOf requestId = manager.blocksOf requestId) ∧
      (∀ block, occurrences manager' block = occurrences manager block) ∧
      SameManager manager manager' := by
  unfold Manager.baseCacheBlocks at cached
  simp only at cached
  split at cached
  · obtain ⟨rfl, rfl⟩ : pool = pool' ∧ manager = manager' := by simpa using cached
    exact ⟨SameCounts.refl pool, fun _ _ _ _ => rfl, fun _ => rfl, fun _ => rfl,
      SameManager.refl manager⟩
  · obtain ⟨final, done, same⟩ := map_eq_some_iff.mp cached
    obtain ⟨rfl, rfl⟩ := Prod.mk.inj same
    obtain ⟨counts, keeps⟩ := cacheFullBlocks_frame _ done
    refine ⟨counts, keeps, ?_, ?_, rfl, rfl, rfl, rfl⟩
    · intro requestId
      change (manager.setBlocks request.requestId _).blocksOf requestId = _
      rw [blocksOf_set]
      by_cases here : requestId = request.requestId
      · rw [if_pos here, here]
      · rw [if_neg here]
    · intro block
      have set := occurrences_set manager request.requestId (manager.blocksOf request.requestId)
        block
      change occurrences (manager.setBlocks request.requestId _) block = _
      omega

theorem cacheBlocks_frame {manager manager' : Manager Digest} {pool pool' : Pool Digest}
    {request : Request Digest} {numTokens : Int}
    (cached : manager.cacheBlocks pool request numTokens = some (pool', manager')) :
    SameCounts pool pool' ∧ KeepsHashes pool pool' ∧
      (∀ requestId, manager'.blocksOf requestId = manager.blocksOf requestId) ∧
      (∀ block, occurrences manager' block = occurrences manager block) ∧
      SameManager manager manager' := by
  unfold Manager.cacheBlocks at cached
  split at cached
  · contradiction
  · obtain ⟨⟨final, manager₁⟩, base, same⟩ := map_eq_some_iff.mp cached
    obtain ⟨rfl, rfl⟩ := Prod.mk.inj same
    obtain ⟨counts, keeps, tables, total, kept⟩ := baseCacheBlocks_frame base
    exact ⟨counts, keeps, tables, total, kept.kvCacheSpec, kept.blockSize, kept.enableCaching,
      kept.kvCacheGroupId⟩
  · exact baseCacheBlocks_frame cached

end

end VllmDcu.TableTurns

import VllmDcu.CacheHit
import VllmDcu.TableTurns

/-! The tables of a Mamba group in the "align" cache mode: null blocks, and at the end the
running state and the speculative blocks. An allocation moves the speculative blocks to the
new end and draws the blocks that are missing there. -/
namespace VllmDcu.AlignTables
open Requests FreeBlockQueue BlockPool KVCacheInterface MathUtils SingleTypeManager
open PoolCache PoolAccounts TableAccounts TableTurns FreeOrder List Option Dict

variable {Digest : Type}

def lastBlocks (count : Nat) (table : List BlockId) : List BlockId :=
  table.drop (table.length - count)

/-- The table ends with `count` distinct blocks, none of them the null block. -/
structure EndsDistinct (nullBlock : BlockId) (count : Nat) (table : List BlockId) : Prop where
  long : count ≤ table.length
  distinct : (lastBlocks count table).Nodup
  real : nullBlock ∉ lastBlocks count table

theorem lastBlocks_append (front blocks : List BlockId) :
    lastBlocks blocks.length (front ++ blocks) = blocks := by
  unfold lastBlocks
  rw [length_append, Nat.add_sub_cancel, drop_left]

variable (nullBlock : BlockId)

theorem endsDistinct_append (count : Nat) (front blocks : List BlockId)
    (length : blocks.length = count) (distinct : blocks.Nodup) (real : nullBlock ∉ blocks) :
    EndsDistinct nullBlock count (front ++ blocks) := by
  subst length
  constructor
  · rw [length_append]
    exact Nat.le_add_left _ _
  · rwa [lastBlocks_append]
  · rwa [lastBlocks_append]

theorem EndsDistinct.fewer {nullBlock : BlockId} {count fewer : Nat} {table : List BlockId}
    (ends : EndsDistinct nullBlock count table) (less : fewer ≤ count) :
    EndsDistinct nullBlock fewer table := by
  have suffix : lastBlocks fewer table =
      (lastBlocks count table).drop (table.length - fewer - (table.length - count)) := by
    unfold lastBlocks
    rw [drop_drop]
    congr 1
    omega
  constructor
  · exact Nat.le_trans less ends.long
  · rw [suffix]
    exact ends.distinct.sublist (drop_sublist _ _)
  · rw [suffix]
    exact fun member => ends.real (mem_of_mem_drop member)

/-- Only the last entries matter. -/
theorem EndsDistinct.congr {nullBlock : BlockId} {count : Nat} {table table' : List BlockId}
    (ends : EndsDistinct nullBlock count table) (length : table'.length = table.length)
    (same : lastBlocks count table' = lastBlocks count table) :
    EndsDistinct nullBlock count table' := by
  constructor
  · rw [length]
    exact ends.long
  · rw [same]
    exact ends.distinct
  · rw [same]
    exact ends.real

/-! Giving up skipped blocks. -/

theorem skipLoop_drop (count start : Nat) (blocks : List BlockId) (before : count ≤ start) :
    (Manager.skipLoop nullBlock count blocks).2.length = blocks.length ∧
      (Manager.skipLoop nullBlock count blocks).2.drop start = blocks.drop start := by
  induction count generalizing blocks with
  | zero => exact ⟨rfl, rfl⟩
  | succ last ih =>
    rw [Manager.skipLoop]
    split
    · exact ⟨rfl, rfl⟩
    · split
      · exact ⟨rfl, rfl⟩
      · obtain ⟨length, kept⟩ := ih (blocks.set last nullBlock) (Nat.le_of_succ_le before)
        constructor
        · exact length.trans length_set
        · rw [kept, drop_set_of_lt (Nat.lt_of_succ_le before)]

/-! Moving the speculative blocks. -/

theorem range_shift (count : Nat) (start : Int) :
    (List.range (count + 1)).map (fun (offset : Nat) => start + (offset : Int)) =
      start :: (List.range count).map fun (offset : Nat) => (start + 1) + (offset : Int) := by
  rw [range_succ_eq_map, map_cons, List.map_map]
  congr 1
  · simp
  · apply map_congr_left
    intro offset _
    show start + ((offset + 1 : Nat) : Int) = start + 1 + (offset : Int)
    omega

/-- The loop moves the first speculative blocks behind the others, and null blocks take their
places. -/
theorem reuseLoop_moves (numSkippedBlocks : Int) (front spare back : List BlockId) :
    ∃ moved : Nat, (moved : Int) = max 0 (min (spare.length : Int) (numSkippedBlocks - front.length)) ∧
      Manager.reuseLoop nullBlock numSkippedBlocks
          ((List.range spare.length).map fun (offset : Nat) => (front.length : Int) + (offset : Int))
          (front ++ spare ++ back) =
        front ++ List.replicate moved nullBlock ++ spare.drop moved ++ back ++ spare.take moved := by
  induction spare generalizing front back with
  | nil => exact ⟨0, by simp, by simp [Manager.reuseLoop]⟩
  | cons block spare ih =>
    rw [length_cons, range_shift]
    by_cases below : (front.length : Int) < numSkippedBlocks
    · obtain ⟨moved, count, result⟩ := ih (front ++ [nullBlock]) (back ++ [block])
      have found : (front ++ block :: spare ++ back)[(front.length : Int).toNat]? = some block := by
        rw [Int.toNat_natCast, append_assoc, getElem?_append_right (Nat.le_refl _), Nat.sub_self]
        rfl
      have cleared : ((front ++ block :: spare ++ back) ++ [block]).set (front.length : Int).toNat
          nullBlock = front ++ [nullBlock] ++ spare ++ (back ++ [block]) := by
        simp
      have next : ((front ++ [nullBlock]).length : Int) = (front.length : Int) + 1 := by
        simp
      rw [next] at count result
      refine ⟨moved + 1, ?_, ?_⟩
      · omega
      · rw [Manager.reuseLoop, if_pos below, found]
        simp only
        rw [cleared, result]
        simp [replicate_succ]
    · refine ⟨0, ?_, ?_⟩
      · omega
      · rw [Manager.reuseLoop, if_neg below]
        simp

/-- Afterwards the speculative blocks are the last ones, in some order. -/
theorem reuseLoop_tail (numSkippedBlocks : Int) (front spare : List BlockId)
    (below : (front.length : Int) ≤ numSkippedBlocks) :
    ∃ arranged back, Manager.reuseLoop nullBlock numSkippedBlocks
          ((List.range spare.length).map fun (offset : Nat) => (front.length : Int) + (offset : Int))
          (front ++ spare ++ List.replicate
            (numSkippedBlocks - ((front ++ spare).length : Int)).toNat nullBlock) =
        arranged ++ back ∧ back.Perm spare ∧
      ((arranged.length + back.length : Nat) : Int) = numSkippedBlocks + spare.length := by
  obtain ⟨moved, count, result⟩ := reuseLoop_moves nullBlock numSkippedBlocks front spare
    (replicate (numSkippedBlocks - ((front ++ spare).length : Int)).toNat nullBlock)
  rw [result]
  have whole : (front ++ spare).length = front.length + spare.length := length_append
  have rotated : (spare.drop moved ++ spare.take moved).Perm spare :=
    perm_append_comm.trans (Perm.of_eq (take_append_drop moved spare))
  by_cases beyond : numSkippedBlocks ≤ ((front ++ spare).length : Int)
  · -- Without padding the blocks that stayed come before the moved ones.
    refine ⟨front ++ replicate moved nullBlock, spare.drop moved ++ spare.take moved, ?_,
      rotated, ?_⟩
    · have padding : (numSkippedBlocks - ((front ++ spare).length : Int)).toNat = 0 := by omega
      rw [padding]
      simp
    · rw [rotated.length_eq, length_append, length_replicate]
      omega
  · have all : moved = spare.length := by omega
    refine ⟨_, spare.take moved, rfl, ?_, ?_⟩
    · rw [all, take_length]
    · simp only [length_append, length_replicate, length_drop, length_take]
      omega

/-! Drawing blocks. -/

/-- The queue holds unused blocks only, and the tables of the manager hold references. -/
structure Backed (pool : Pool Digest) (manager : Manager Digest) : Prop where
  queue : ∃ free, Queued pool free
  single : ∀ requestId, Single pool.nullBlock (manager.blocksOf requestId)
  used : ∀ block, block ≠ pool.nullBlock →
    (occurrences manager block : Int) ≤ (pool.blocks block).refCnt

theorem Backed.ready {pool : Pool Digest} {manager : Manager Digest} (backed : Backed pool manager)
    (requestId : ReqId) : Ready pool (manager.blocksOf requestId) := by
  constructor
  · exact backed.queue
  · exact backed.single requestId
  · intro block real
    have used := backed.used block real
    have most := occurrences_le manager requestId block
    omega

theorem Backed.turn {requestId : ReqId} {pool pool' : Pool Digest} {manager manager' : Manager Digest}
    (backed : Backed pool manager) (turn : Turn requestId pool pool' manager manager') :
    Backed pool' manager' := by
  have null := turn.moved.shape.nullBlock
  constructor
  · exact turn.moved.queue
  · intro other
    by_cases here : other = requestId
    · subst here
      exact (turn.moved.ready (backed.ready other)).single
    · rw [turn.others other here, null]
      exact backed.single other
  · intro block real
    rw [null] at real
    have counts := turn.moved.counts block real
    have total := turn.total block
    have used := backed.used block real
    omega

theorem Backed.frame {pool pool' : Pool Digest} {manager manager' : Manager Digest}
    (backed : Backed pool manager) (same : SameCounts pool pool')
    (tables : ∀ requestId, manager'.blocksOf requestId = manager.blocksOf requestId)
    (total : ∀ block, occurrences manager' block = occurrences manager block) :
    Backed pool' manager' := by
  obtain ⟨free, queued⟩ := backed.queue
  constructor
  · exact ⟨free, queued_frame pool queued same⟩
  · intro requestId
    rw [tables, same.shape.nullBlock]
    exact backed.single requestId
  · intro block real
    rw [same.shape.nullBlock] at real
    rw [total, same.counts]
    exact backed.used block real

section
variable [DecidableEq Digest]

variable (pool : Pool Digest)

theorem maybeEvict_refCnt (block other : BlockId) :
    ((pool.maybeEvictCachedBlock block).2.blocks other).refCnt = (pool.blocks other).refCnt := by
  unfold Pool.maybeEvictCachedBlock
  split
  · rfl
  · split
    · rfl
    · unfold Pool.addEvent
      split
      · exact setHash_refCnt pool block other none
      · exact setHash_refCnt pool block other none

theorem takeLoop_succeeds (ids : List BlockId) (distinct : ids.Nodup)
    (unused : ∀ block ∈ ids, (pool.blocks block).refCnt = 0) :
    ∃ pool', pool.takeLoop ids = some pool' := by
  induction ids generalizing pool with
  | nil => exact ⟨pool, rfl⟩
  | cons block rest ih =>
    obtain ⟨absent, distinctRest⟩ := nodup_cons.mp distinct
    have evicted (other : BlockId) : ((if pool.enableCaching then
        (pool.maybeEvictCachedBlock block).2 else pool).blocks other).refCnt =
          (pool.blocks other).refCnt := by
      split
      · exact maybeEvict_refCnt pool block other
      · rfl
    rw [Pool.takeLoop]
    simp only [evicted, unused block mem_cons_self, ↓reduceIte]
    apply ih _ distinctRest
    intro other member
    have differs : other ≠ block := fun same => absent (same ▸ member)
    rw [addRef_refCnt, if_neg differs, evicted, Int.add_zero]
    exact unused other (mem_cons_of_mem _ member)

theorem getNewBlocks_succeeds (numBlocks : Nat) (free : List BlockId) (queued : Queued pool free)
    (enough : (numBlocks : Int) ≤ pool.getNumFreeBlocks) :
    ∃ ids pool', pool.getNewBlocks numBlocks = some (ids, pool') := by
  have within : numBlocks ≤ free.length := by
    rw [Pool.getNumFreeBlocks, queued.holds.count] at enough
    omega
  obtain ⟨queue, popped, -⟩ := popleftN_holds _ within queued.holds
  obtain ⟨final, taken⟩ := takeLoop_succeeds { pool with freeBlockQueue := queue }
    (free.take numBlocks) (queued.holds.represents.distinct.sublist (take_sublist _ _))
    fun block member => (queued.unused block (mem_of_mem_take member)).2
  refine ⟨free.take numBlocks, final, ?_⟩
  rw [Pool.getNewBlocks, if_neg (Int.not_lt.mpr enough), popped]
  simp only [taken, map_some]

/-- Drawn blocks are distinct, and in no table of the manager. -/
theorem getNewBlocks_draws {pool' : Pool Digest} {manager : Manager Digest} {numBlocks : Nat}
    {ids : List BlockId} (backed : Backed pool manager)
    (got : pool.getNewBlocks numBlocks = some (ids, pool')) :
    pool'.getNumFreeBlocks = pool.getNumFreeBlocks - numBlocks ∧ ids.length = numBlocks ∧
      ids.Nodup ∧ pool.nullBlock ∉ ids ∧
      ∀ block ∈ ids, ∀ requestId, block ∉ manager.blocksOf requestId := by
  obtain ⟨free, queued⟩ := backed.queue
  have within : numBlocks ≤ free.length := by
    by_contra short
    have count := queued.holds.count
    rw [Pool.getNewBlocks, if_pos (by rw [Pool.getNumFreeBlocks]; omega)] at got
    contradiction
  obtain ⟨front, queuedNow, -, -, -⟩ := getNewBlocks_queued (Int.natCast_nonneg _) queued got
  rw [Int.toNat_natCast] at front queuedNow
  have unused : ∀ block ∈ ids, block ≠ pool.nullBlock ∧ (pool.blocks block).refCnt = 0 := by
    intro block member
    rw [front] at member
    exact queued.unused block (mem_of_mem_take member)
  refine ⟨?_, ?_, ?_, ?_, ?_⟩
  · rw [Pool.getNumFreeBlocks, Pool.getNumFreeBlocks, queuedNow.holds.count, queued.holds.count,
      length_drop]
    omega
  · rw [front, length_take, Nat.min_eq_left within]
  · rw [front]
    exact queued.holds.represents.distinct.sublist (take_sublist _ _)
  · exact fun member => (unused _ member).1 rfl
  · intro block member requestId listed
    obtain ⟨real, zero⟩ := unused block member
    have used := backed.used block real
    have most := occurrences_le manager requestId block
    have positive := count_pos_iff.mpr listed
    omega

end


/-! Allocating. -/

/-- The table of a request whose last allocation was for `numTokens` tokens. -/
structure Holding (spec : MambaSpec) (nullBlock : BlockId) (manager : Manager Digest)
    (requestId : ReqId) (numTokens : Int) : Prop where
  allocated : requestId ∈ manager.allocatedBlockReqs
  length : ((manager.blocksOf requestId).length : Int) =
    cdiv numTokens manager.blockSize + spec.numSpeculativeBlocks
  ends : EndsDistinct nullBlock (1 + spec.numSpeculativeBlocks) (manager.blocksOf requestId)
  last : ∀ index, manager.lastStateBlockIdx.get? requestId = some index →
    0 ≤ index ∧ index + 1 < cdiv numTokens manager.blockSize

/-- A request without blocks of its own, and room for its running state after its computed
blocks. -/
structure Starting (manager : Manager Digest) (requestId : ReqId) (numTokens : Int) : Prop where
  allocated : requestId ∉ manager.allocatedBlockReqs
  last : manager.lastStateBlockIdx.get? requestId = none
  short : ((manager.blocksOf requestId).length : Int) < cdiv numTokens manager.blockSize

/-- What the group knows of a request is as before. -/
structure Unmoved (manager manager' : Manager Digest) (requestId : ReqId) : Prop where
  blockSize : manager'.blockSize = manager.blockSize
  blocks : manager'.blocksOf requestId = manager.blocksOf requestId
  allocated : requestId ∈ manager'.allocatedBlockReqs ↔ requestId ∈ manager.allocatedBlockReqs
  last : manager'.lastStateBlockIdx.get? requestId = manager.lastStateBlockIdx.get? requestId

theorem setBlocks_unmoved {manager : Manager Digest} {requestId other : ReqId}
    {table : List BlockId} (differs : other ≠ requestId) :
    Unmoved manager (manager.setBlocks requestId table) other := by
  constructor
  · rfl
  · rw [blocksOf_set, if_neg differs]
  · exact Iff.rfl
  · rfl

theorem unmoved_refl {manager : Manager Digest} {requestId : ReqId} :
    Unmoved manager manager requestId := ⟨rfl, rfl, Iff.rfl, rfl⟩

theorem Unmoved.trans {first second third : Manager Digest} {requestId : ReqId}
    (one : Unmoved first second requestId) (two : Unmoved second third requestId) :
    Unmoved first third requestId :=
  ⟨two.blockSize.trans one.blockSize, two.blocks.trans one.blocks,
    two.allocated.trans one.allocated, two.last.trans one.last⟩

theorem Holding.frame {spec : MambaSpec} {nullBlock : BlockId} {manager manager' : Manager Digest}
    {requestId : ReqId} {numTokens : Int} (holding : Holding spec nullBlock manager requestId numTokens)
    (unmoved : Unmoved manager manager' requestId) :
    Holding spec nullBlock manager' requestId numTokens := by
  constructor
  · exact unmoved.allocated.mpr holding.allocated
  · rw [unmoved.blocks, unmoved.blockSize]
    exact holding.length
  · rw [unmoved.blocks]
    exact holding.ends
  · rw [unmoved.last, unmoved.blockSize]
    exact holding.last

theorem Starting.frame {manager manager' : Manager Digest} {requestId : ReqId} {numTokens : Int}
    (starting : Starting manager requestId numTokens)
    (unmoved : Unmoved manager manager' requestId) : Starting manager' requestId numTokens := by
  constructor
  · rw [unmoved.allocated]
    exact starting.allocated
  · rw [unmoved.last]
    exact starting.last
  · rw [unmoved.blocks, unmoved.blockSize]
    exact starting.short

def recorded (manager : Manager Digest) (requestId : ReqId) (table : List BlockId)
    (lastStateBlockIdx : Dict ReqId Int) : Manager Digest :=
  { manager.setBlocks requestId table with
    lastStateBlockIdx := lastStateBlockIdx
    allocatedBlockReqs := requestId :: manager.allocatedBlockReqs.filter (· ≠ requestId) }

section
variable [DecidableEq Digest]

/-- The allocation draws `count` blocks behind `back`, the blocks that stay at the end. -/
structure Extends (spec : MambaSpec) (pool : Pool Digest) (manager : Manager Digest)
    (requestId : ReqId) (numTokens : Int) (count : Nat) (front back : List BlockId)
    (lastStateBlockIdx : Dict ReqId Int) : Prop where
  ending : back.length + count = 1 + spec.numSpeculativeBlocks
  required : ((front.length + back.length + count : Nat) : Int) =
    cdiv numTokens manager.blockSize + spec.numSpeculativeBlocks
  distinct : back.Nodup
  real : pool.nullBlock ∉ back
  listed : ∀ block ∈ back, block ∈ manager.blocksOf requestId
  last : ∀ index, lastStateBlockIdx.get? requestId = some index →
    0 ≤ index ∧ index + 1 < cdiv numTokens manager.blockSize
  others : ∀ other, other ≠ requestId →
    lastStateBlockIdx.get? other = manager.lastStateBlockIdx.get? other
  outcome : manager.alignAllocateNewBlocks spec pool requestId numTokens =
    (pool.getNewBlocks count).map fun (ids, pool) =>
      ((front ++ back ++ ids).drop (manager.blocksOf requestId).length, pool,
        recorded manager requestId (front ++ back ++ ids) lastStateBlockIdx)

variable (spec : MambaSpec) (pool : Pool Digest)

theorem alignAllocate_first {manager : Manager Digest} {requestId : ReqId} {numTokens : Int}
    (starting : Starting manager requestId numTokens) :
    ∃ front lastStateBlockIdx, Extends spec pool manager requestId numTokens
      (1 + spec.numSpeculativeBlocks) front [] lastStateBlockIdx := by
  let table := manager.blocksOf requestId
  let numSkippedBlocks := cdiv numTokens manager.blockSize - 1
  have short : (table.length : Int) < cdiv numTokens manager.blockSize := starting.short
  let padded := table ++ replicate (numSkippedBlocks - (table.length : Int)).toNat pool.nullBlock
  let last : Dict ReqId Int :=
    if (table.length : Int) > 0 then
      manager.lastStateBlockIdx.set requestId ((table.length : Int) - 1)
    else manager.lastStateBlockIdx
  have length : (padded.length : Int) = numSkippedBlocks := by
    simp only [padded, length_append, length_replicate]
    omega
  refine ⟨padded, last, ?_⟩
  constructor
  · simp
  · rw [length_nil]
    omega
  · exact nodup_nil
  · exact not_mem_nil
  · simp
  · intro index found
    by_cases some : (table.length : Int) > 0
    · rw [show last = _ from if_pos some, get?_set, if_pos rfl, Option.some.injEq] at found
      omega
    · rw [show last = _ from if_neg some, starting.last] at found
      contradiction
  · intro other differs
    by_cases some : (table.length : Int) > 0
    · rw [show last = _ from if_pos some, get?_set, if_neg differs]
    · rw [show last = _ from if_neg some]
  · have absent : decide (requestId ∈ manager.allocatedBlockReqs) = false :=
      decide_eq_false starting.allocated
    have required : (table.length : Int) <
        cdiv numTokens manager.blockSize + spec.numSpeculativeBlocks := by omega
    have skipped : cdiv numTokens manager.blockSize + spec.numSpeculativeBlocks -
        spec.numSpeculativeBlocks - 1 = numSkippedBlocks := by omega
    have missing : cdiv numTokens manager.blockSize + spec.numSpeculativeBlocks -
        (padded.length : Int) = ((1 + spec.numSpeculativeBlocks : Nat) : Int) := by omega
    have atMost : ¬ ((1 + spec.numSpeculativeBlocks : Nat) : Int) >
        (spec.numSpeculativeBlocks : Int) + 1 := by omega
    unfold Manager.alignAllocateNewBlocks
    simp only [absent, Bool.false_eq_true, ↓reduceIte, skipped]
    rw [if_neg (Int.ne_of_gt required), if_neg (Int.not_lt.mpr (Int.le_of_lt required))]
    rw [missing, if_neg atMost, append_nil]
    rfl

theorem alignAllocate_again {manager : Manager Digest} {requestId : ReqId} {before numTokens : Int}
    (holding : Holding spec pool.nullBlock manager requestId before)
    (more : cdiv before manager.blockSize < cdiv numTokens manager.blockSize) :
    ∃ front back lastStateBlockIdx,
      Extends spec pool manager requestId numTokens 1 front back lastStateBlockIdx := by
  let table := manager.blocksOf requestId
  let numSkippedBlocks := cdiv numTokens manager.blockSize - 1
  have length : (table.length : Int) =
    cdiv before manager.blockSize + spec.numSpeculativeBlocks := holding.length
  have long : 1 + spec.numSpeculativeBlocks ≤ table.length := holding.ends.long
  -- The table splits before its speculative blocks.
  let first := table.take (table.length - spec.numSpeculativeBlocks)
  let spare := lastBlocks spec.numSpeculativeBlocks table
  have whole : table = first ++ spare := (take_append_drop _ table).symm
  have firstLength : first.length = table.length - spec.numSpeculativeBlocks := by
    rw [length_take]
    omega
  have spareLength : spare.length = spec.numSpeculativeBlocks := by
    change (table.drop _).length = _
    rw [length_drop]
    omega
  have spareEnds := holding.ends.fewer (Nat.le_add_left spec.numSpeculativeBlocks 1)
  obtain ⟨arranged, back, moved, same, count⟩ := reuseLoop_tail pool.nullBlock numSkippedBlocks first
    spare (by omega)
  have backLength := same.length_eq
  rw [← whole, spareLength, firstLength] at moved
  refine ⟨arranged, back,
    manager.lastStateBlockIdx.set requestId ((table.length : Int) - 1 - spec.numSpeculativeBlocks),
    ?_⟩
  constructor
  · omega
  · omega
  · exact same.nodup_iff.mpr spareEnds.distinct
  · exact fun member => spareEnds.real (same.mem_iff.mp member)
  · intro block member
    exact mem_of_mem_drop (same.mem_iff.mp member)
  · intro index found
    rw [get?_set, if_pos rfl, some.injEq] at found
    omega
  · intro other differs
    rw [get?_set, if_neg differs]
  · have present : decide (requestId ∈ manager.allocatedBlockReqs) = true :=
      decide_eq_true holding.allocated
    have required : (table.length : Int) <
        cdiv numTokens manager.blockSize + spec.numSpeculativeBlocks := by omega
    have skipped : cdiv numTokens manager.blockSize + spec.numSpeculativeBlocks -
        spec.numSpeculativeBlocks - 1 = numSkippedBlocks := by omega
    have missing : cdiv numTokens manager.blockSize + spec.numSpeculativeBlocks -
        ((arranged ++ back).length : Int) = ((1 : Nat) : Int) := by
      rw [length_append]
      omega
    have start : ((table.length - spec.numSpeculativeBlocks : Nat) : Int) =
        (table.length : Int) - spec.numSpeculativeBlocks := by omega
    rw [start] at moved
    unfold Manager.alignAllocateNewBlocks
    simp only [range_cast, present, ↓reduceIte, skipped]
    rw [if_neg (Int.ne_of_gt required), if_neg (Int.not_lt.mpr (Int.le_of_lt required))]
    rw [moved, missing]
    rfl

omit [DecidableEq Digest] in
theorem recorded_unmoved {manager : Manager Digest} {requestId other : ReqId}
    (table : List BlockId) {lastStateBlockIdx : Dict ReqId Int}
    (last : lastStateBlockIdx.get? other = manager.lastStateBlockIdx.get? other)
    (differs : other ≠ requestId) :
    Unmoved manager (recorded manager requestId table lastStateBlockIdx) other := by
  constructor
  · rfl
  · change (manager.setBlocks requestId table).blocksOf other = _
    rw [blocksOf_set, if_neg differs]
  · change other ∈ requestId :: _ ↔ _
    simp [differs]
  · exact last

theorem Extends.succeeds {spec : MambaSpec} {pool : Pool Digest} {manager : Manager Digest}
    {requestId : ReqId} {numTokens : Int} {count : Nat} {front back : List BlockId}
    {lastStateBlockIdx : Dict ReqId Int}
    (extension : Extends spec pool manager requestId numTokens count front back lastStateBlockIdx)
    (backed : Backed pool manager) (enough : (count : Int) ≤ pool.getNumFreeBlocks) :
    ∃ outcome, manager.alignAllocateNewBlocks spec pool requestId numTokens = some outcome := by
  obtain ⟨free, queued⟩ := backed.queue
  obtain ⟨ids, final, got⟩ := getNewBlocks_succeeds pool count free queued enough
  rw [extension.outcome, got]
  exact ⟨_, rfl⟩

/-- The drawn blocks and those that stay make a distinct end. -/
theorem Extends.holds {spec : MambaSpec} {pool pool' : Pool Digest} {manager manager' : Manager Digest}
    {requestId : ReqId} {numTokens : Int} {count : Nat} {front back newBlocks : List BlockId}
    {lastStateBlockIdx : Dict ReqId Int}
    (extension : Extends spec pool manager requestId numTokens count front back lastStateBlockIdx)
    (backed : Backed pool manager)
    (allocated : manager.alignAllocateNewBlocks spec pool requestId numTokens =
      some (newBlocks, pool', manager')) :
    pool'.getNumFreeBlocks = pool.getNumFreeBlocks - count ∧
      Holding spec pool.nullBlock manager' requestId numTokens ∧
      ∀ other, other ≠ requestId → Unmoved manager manager' other := by
  rw [extension.outcome, map_eq_some_iff] at allocated
  obtain ⟨⟨ids, final⟩, got, same⟩ := allocated
  simp only [Prod.mk.injEq] at same
  obtain ⟨-, rfl, rfl⟩ := same
  obtain ⟨fewer, length, distinct, real, fresh⟩ := getNewBlocks_draws pool backed got
  have table : (recorded manager requestId (front ++ back ++ ids) lastStateBlockIdx).blocksOf
      requestId = front ++ (back ++ ids) := by
    change (manager.setBlocks requestId _).blocksOf requestId = _
    rw [blocksOf_set, if_pos rfl, append_assoc]
  refine ⟨fewer, ?_, fun other differs =>
    recorded_unmoved _ (extension.others other differs)
      differs⟩
  constructor
  · exact mem_cons_self
  · rw [table, length_append, length_append, length, ← Nat.add_assoc]
    exact extension.required
  · rw [table]
    apply endsDistinct_append
    · rw [length_append, length]
      exact extension.ending
    · apply nodup_append.mpr
      refine ⟨extension.distinct, distinct, ?_⟩
      rintro block kept _ drawn rfl
      exact fresh block drawn requestId (extension.listed block kept)
    · intro member
      rcases mem_append.mp member with kept | drawn
      · exact extension.real kept
      · exact real drawn
  · exact extension.last

/-- An allocation for `numTokens` tokens draws `count` blocks, and its assertions hold. -/
structure Draws (spec : MambaSpec) (pool : Pool Digest) (manager : Manager Digest)
    (requestId : ReqId) (numTokens : Int) (count : Nat) : Prop where
  required : ((manager.blocksOf requestId).length : Int) ≤
    cdiv numTokens manager.blockSize + spec.numSpeculativeBlocks
  succeeds : (count : Int) ≤ pool.getNumFreeBlocks →
    ∃ outcome, manager.alignAllocateNewBlocks spec pool requestId numTokens = some outcome
  holds : ∀ newBlocks pool' manager',
    manager.alignAllocateNewBlocks spec pool requestId numTokens =
        some (newBlocks, pool', manager') →
      pool'.getNumFreeBlocks = pool.getNumFreeBlocks - count ∧
        Holding spec pool.nullBlock manager' requestId numTokens ∧
        ∀ other, other ≠ requestId → Unmoved manager manager' other

theorem Extends.draws {spec : MambaSpec} {pool : Pool Digest} {manager : Manager Digest}
    {requestId : ReqId} {numTokens : Int} {count : Nat} {front back : List BlockId}
    {lastStateBlockIdx : Dict ReqId Int}
    (extension : Extends spec pool manager requestId numTokens count front back lastStateBlockIdx)
    (backed : Backed pool manager)
    (required : ((manager.blocksOf requestId).length : Int) ≤
      cdiv numTokens manager.blockSize + spec.numSpeculativeBlocks) :
    Draws spec pool manager requestId numTokens count :=
  ⟨required, extension.succeeds backed, fun _ _ _ allocated => extension.holds backed allocated⟩

theorem draws_first {manager : Manager Digest} {requestId : ReqId} {numTokens : Int}
    (backed : Backed pool manager) (starting : Starting manager requestId numTokens) :
    Draws spec pool manager requestId numTokens (1 + spec.numSpeculativeBlocks) := by
  obtain ⟨front, last, extension⟩ := alignAllocate_first spec pool starting
  have short := starting.short
  exact extension.draws backed (by omega)

/-- Later allocations draw one block, or none if the speculative blocks still suffice. -/
theorem draws_again {manager : Manager Digest} {requestId : ReqId} {before numTokens : Int}
    (backed : Backed pool manager) (holding : Holding spec pool.nullBlock manager requestId before)
    (grows : cdiv before manager.blockSize ≤ cdiv numTokens manager.blockSize) :
    Draws spec pool manager requestId numTokens
      (if cdiv before manager.blockSize < cdiv numTokens manager.blockSize then 1 else 0) := by
  have length := holding.length
  by_cases more : cdiv before manager.blockSize < cdiv numTokens manager.blockSize
  · rw [if_pos more]
    obtain ⟨front, back, last, extension⟩ := alignAllocate_again spec pool holding more
    exact extension.draws backed (by omega)
  · rw [if_neg more]
    have same : cdiv numTokens manager.blockSize = cdiv before manager.blockSize :=
      Int.le_antisymm (Int.not_lt.mp more) grows
    have outcome : manager.alignAllocateNewBlocks spec pool requestId numTokens =
        some ([], pool, manager.setBlocks requestId (manager.blocksOf requestId)) := by
      unfold Manager.alignAllocateNewBlocks
      rw [if_pos (by omega)]
    constructor
    · omega
    · exact fun _ => ⟨_, outcome⟩
    · intro newBlocks pool' manager' allocated
      rw [outcome] at allocated
      obtain ⟨-, rfl, rfl⟩ := allocated
      refine ⟨by omega, ?_, fun other differs =>
        setBlocks_unmoved differs⟩
      have kept : Holding spec pool.nullBlock
          (manager.setBlocks requestId (manager.blocksOf requestId)) requestId before := by
        apply holding.frame
        constructor
        · rfl
        · rw [blocksOf_set, if_pos rfl]
        · exact Iff.rfl
        · rfl
      constructor
      · exact kept.allocated
      · rw [kept.length]
        change cdiv before manager.blockSize + _ = cdiv numTokens manager.blockSize + _
        rw [same]
      · exact kept.ends
      · change ∀ index, _ → 0 ≤ index ∧ index + 1 < cdiv numTokens manager.blockSize
        rw [same]
        exact kept.last

end

/-! Computed blocks. -/

/-- A request that the group knows nothing of. -/
structure Absent (manager : Manager Digest) (requestId : ReqId) : Prop where
  blocks : manager.blocksOf requestId = []
  allocated : requestId ∉ manager.allocatedBlockReqs
  last : manager.lastStateBlockIdx.get? requestId = none

theorem Absent.frame {manager manager' : Manager Digest} {requestId : ReqId}
    (absent : Absent manager requestId) (unmoved : Unmoved manager manager' requestId) :
    Absent manager' requestId := by
  constructor
  · rw [unmoved.blocks]
    exact absent.blocks
  · rw [unmoved.allocated]
    exact absent.allocated
  · rw [unmoved.last]
    exact absent.last

/-- What `find_longest_cache_hit` returns for a Mamba group: null blocks up to a cached state. -/
inductive StateHit (nullBlock : BlockId) : List BlockId → Prop where
  | nothing : StateHit nullBlock []
  | state (skipped : Nat) (block : BlockId) :
      StateHit nullBlock (List.replicate skipped nullBlock ++ [block])

theorem StateHit.single {nullBlock : BlockId} {blocks : List BlockId}
    (hit : StateHit nullBlock blocks) : Single nullBlock blocks := by
  intro block real
  cases hit with
  | nothing => exact Nat.zero_le 1
  | state skipped state =>
    rw [count_append, count_replicate, count_one]
    simp only [beq_iff_eq, Ne.symm real, ↓reduceIte, Nat.zero_add]
    split
    · exact Nat.le_refl 1
    · exact Nat.zero_le 1

variable (pool : Pool Digest)

theorem evictable_stateHit (skipped : Nat) (block : BlockId) :
    Manager.getNumEvictableBlocks pool (List.replicate skipped pool.nullBlock ++ [block]) =
      Manager.getNumEvictableBlocks pool [block] := by
  unfold Manager.getNumEvictableBlocks
  simp [Pool.isNull]

/-- Sharing one block takes it out of the queue if it was evictable. -/
theorem touch_one (pool' : Pool Digest) (block : BlockId)
    (touched : pool.touch [block] = some pool') :
    SameShape pool pool' ∧
      pool'.getNumFreeBlocks =
        pool.getNumFreeBlocks - Manager.getNumEvictableBlocks pool [block] := by
  rw [Pool.touch] at touched
  by_cases free : (pool.blocks block).refCnt = 0 ∧ pool.isNull block = false
  · rw [if_pos free] at touched
    split at touched
    · contradiction
    · rename_i queue removed
      obtain rfl := some.inj touched
      have fewer : queue.numFreeBlocks = pool.freeBlockQueue.numFreeBlocks - 1 := by
        unfold FreeQueue.remove at removed
        split at removed
        · obtain rfl := some.inj removed
          rfl
        · contradiction
      refine ⟨⟨rfl, rfl, rfl, rfl⟩, ?_⟩
      have one : Manager.getNumEvictableBlocks pool [block] = 1 := by
        simp [Manager.getNumEvictableBlocks, free.1, free.2]
      rw [one]
      exact fewer
  · rw [if_neg free] at touched
    obtain rfl := some.inj touched
    refine ⟨⟨rfl, rfl, rfl, rfl⟩, ?_⟩
    have none : Manager.getNumEvictableBlocks pool [block] = 0 := by
      simp only [Manager.getNumEvictableBlocks, countP_cons, countP_nil]
      simpa using free
    rw [none]
    exact (Int.sub_zero _).symm

/-- A table is replaced, and the references follow. -/
theorem Backed.replace {pool pool' : Pool Digest} {manager manager' : Manager Digest}
    {free : List BlockId} (backed : Backed pool manager) (requestId : ReqId) (table : List BlockId)
    (shape : SameShape pool pool') (queued : Queued pool' free)
    (single : Single pool.nullBlock table)
    (tables : manager'.reqToBlocks = (manager.setBlocks requestId table).reqToBlocks)
    (counts : ∀ block, block ≠ pool.nullBlock →
      (pool.blocks block).refCnt + table.count block ≤
        (pool'.blocks block).refCnt + (manager.blocksOf requestId).count block) :
    Backed pool' manager' := by
  constructor
  · exact ⟨free, queued⟩
  · intro other
    rw [shape.nullBlock, blocksOf_frame tables, blocksOf_set]
    split
    · exact single
    · exact backed.single other
  · intro block real
    rw [shape.nullBlock] at real
    have here := counts block real
    have used := backed.used block real
    have set := occurrences_set manager requestId table block
    rw [occurrences_frame tables]
    omega

section
variable [DecidableEq Digest]

/-- The computed blocks of a state hit: all but the state are skipped already. -/
theorem addComputedBlocks_state (manager : Manager Digest) (spec : MambaSpec)
    (kind : manager.kvCacheSpec = .mamba spec) (positive : 0 < manager.blockSize)
    (pool : Pool Digest) (requestId : ReqId) (skipped : Nat) (block : BlockId) :
    manager.addComputedBlocks pool requestId (List.replicate skipped pool.nullBlock ++ [block])
        ((skipped + 1 : Nat) * (manager.blockSize : Int)) 0 =
      (if manager.enableCaching then pool.touch [block] else none).map fun pool' =>
        (pool',
          { manager.setBlocks requestId (List.replicate skipped pool'.nullBlock ++ [block]) with
            numCachedBlock := manager.numCachedBlock.set requestId (skipped + 1) }) := by
  have count : manager.getNumSkippedTokens ((skipped + 1 : Nat) * (manager.blockSize : Int) + 0) /
      manager.blockSize = skipped := by
    have tokens : manager.getNumSkippedTokens
        ((skipped + 1 : Nat) * (manager.blockSize : Int) + 0) =
          (manager.blockSize - 1 : Int) + skipped * (manager.blockSize : Int) := by
      simp only [Manager.getNumSkippedTokens, kind, Nat.cast_add, Nat.cast_one, Int.add_mul]
      omega
    rw [tokens, Int.add_mul_ediv_right _ _ (by omega),
      Int.ediv_eq_zero_of_lt (by omega) (by omega), Int.zero_add]
  have kept : (if decide ((skipped : Int) > 0) = true then
      (replicate skipped pool.nullBlock ++ [block]).drop (skipped : Int).toNat
        else replicate skipped pool.nullBlock ++ [block]) = [block] := by
    cases skipped with
    | zero => rfl
    | succ skipped =>
      rw [if_pos (by simp)]
      exact drop_left' length_replicate
  have nothing : ¬ (if decide ((skipped : Int) > 0) = true then
      min ((skipped + 1 : Nat) * (manager.blockSize : Int) + 0 -
        manager.getNumSkippedTokens ((skipped + 1 : Nat) * (manager.blockSize : Int) + 0)) 0
      else 0) > 0 := by
    split
    · omega
    · omega
  unfold Manager.addComputedBlocks
  simp only [count, kept, nothing, ↓reduceIte, isEmpty_cons, Bool.false_eq_true]
  cases touched : (if manager.enableCaching = true then pool.touch [block] else none) with
  | none => rfl
  | some final =>
    simp only [map_some, Int.toNat_natCast, length_append, length_replicate, length_singleton]

theorem addComputedBlocks_nothing (manager : Manager Digest) (spec : MambaSpec)
    (kind : manager.kvCacheSpec = .mamba spec) (positive : 0 < manager.blockSize)
    (pool : Pool Digest) (requestId : ReqId) :
    manager.addComputedBlocks pool requestId [] 0 0 =
      some (pool,
        { manager.setBlocks requestId [] with
          numCachedBlock := manager.numCachedBlock.set requestId 0 }) := by
  have count : manager.getNumSkippedTokens (0 + 0) / manager.blockSize = -1 := by
    have tokens : manager.getNumSkippedTokens (0 + 0) = -1 := by
      simp only [Manager.getNumSkippedTokens, kind]
      omega
    exact Int.ediv_eq_neg_one_of_neg_of_le (by omega) (by omega)
  unfold Manager.addComputedBlocks
  simp only [count, drop_nil, ite_self, isEmpty_nil, ↓reduceIte, Pool.touch]
  rfl

/-- A hit leaves room for the running state of the tokens that follow. -/
theorem allocateNewComputedBlocks_starts {manager manager' : Manager Digest} {spec : MambaSpec}
    (kind : manager.kvCacheSpec = .mamba spec) (positive : 0 < manager.blockSize)
    {pool pool' : Pool Digest} {requestId : ReqId} {blocks : List BlockId} {numTokens : Int}
    (backed : Backed pool manager) (absent : Absent manager requestId)
    (hit : StateHit pool.nullBlock blocks)
    (room : (blocks.length : Int) * manager.blockSize < numTokens)
    (added : manager.allocateNewComputedBlocks pool requestId blocks
      ((blocks.length : Int) * manager.blockSize) 0 = some (pool', manager')) :
    Backed pool' manager' ∧ SameShape pool pool' ∧ SameManager manager manager' ∧
      Starting manager' requestId numTokens ∧
      (∀ other, other ≠ requestId → Unmoved manager manager' other) ∧
      pool'.getNumFreeBlocks =
        pool.getNumFreeBlocks - Manager.getNumEvictableBlocks pool blocks := by
  have enough := (lt_cdiv_iff numTokens blocks.length positive).mpr room
  have unknown (table : List BlockId) (length : table.length = blocks.length)
      (tables : manager'.reqToBlocks = (manager.setBlocks requestId table).reqToBlocks)
      (allocated : manager'.allocatedBlockReqs = manager.allocatedBlockReqs)
      (last : manager'.lastStateBlockIdx = manager.lastStateBlockIdx)
      (same : SameManager manager manager') :
      Starting manager' requestId numTokens ∧
        ∀ other, other ≠ requestId → Unmoved manager manager' other := by
    constructor
    · constructor
      · rw [allocated]
        exact absent.allocated
      · rw [last]
        exact absent.last
      · rw [blocksOf_frame tables, blocksOf_set, if_pos rfl, length, same.blockSize]
        exact enough
    · intro other differs
      constructor
      · exact same.blockSize
      · rw [blocksOf_frame tables, blocksOf_set, if_neg differs]
      · rw [allocated]
      · rw [last]
  unfold Manager.allocateNewComputedBlocks at added
  simp only [kind] at added
  cases hit with
  | nothing =>
    have nothing : Manager.getNumEvictableBlocks pool [] = 0 := rfl
    have none : (([] : List BlockId).length : Int) * manager.blockSize = 0 := by simp
    simp only [isEmpty_nil, ↓reduceIte, none, absent.blocks,
      addComputedBlocks_nothing manager spec kind positive] at added
    split at added
    · obtain ⟨rfl, rfl⟩ := Prod.mk.inj (some.inj added)
      refine ⟨backed, SameShape.refl pool, SameManager.refl manager, ⟨absent.allocated, absent.last,
        ?_⟩, fun other _ => unmoved_refl, ?_⟩
      · rw [absent.blocks]
        exact enough
      · omega
    · obtain ⟨rfl, rfl⟩ := Prod.mk.inj (some.inj added)
      obtain ⟨free, queued⟩ := backed.queue
      obtain ⟨starting, others⟩ := unknown [] rfl rfl rfl rfl ⟨rfl, rfl, rfl, rfl⟩
      refine ⟨?_, SameShape.refl pool, ⟨rfl, rfl, rfl, rfl⟩, starting, others, by omega⟩
      apply backed.replace requestId [] (SameShape.refl pool) queued
      · exact fun _ _ => Nat.zero_le 1
      · rfl
      · intro block _
        rw [count_nil]
        omega
  | state skipped block =>
    have length : (replicate skipped pool.nullBlock ++ [block]).length = skipped + 1 := by simp
    have some : (replicate skipped pool.nullBlock ++ [block]).isEmpty = false := by simp
    rw [length] at added
    simp only [some, Bool.false_eq_true, ↓reduceIte, absent.blocks, isEmpty_nil,
      addComputedBlocks_state manager spec kind positive] at added
    split at added
    · contradiction
    · obtain ⟨final, touched, same⟩ := map_eq_some_iff.mp added
      obtain ⟨rfl, rfl⟩ := Prod.mk.inj same
      split at touched
      · obtain ⟨shape, fewer⟩ := touch_one pool final block touched
        obtain ⟨free, queued⟩ := backed.queue
        obtain ⟨queuedNow, counts⟩ := touch_queued pool final [block] free queued touched
        obtain ⟨starting, others⟩ := unknown (replicate skipped final.nullBlock ++ [block])
          (by simp) rfl rfl rfl ⟨rfl, rfl, rfl, rfl⟩
        refine ⟨?_, shape, ⟨rfl, rfl, rfl, rfl⟩, starting, others, ?_⟩
        · apply backed.replace requestId (replicate skipped final.nullBlock ++ [block]) shape
            queuedNow
          · rw [shape.nullBlock]
            exact (StateHit.state skipped block).single
          · rfl
          · intro other real
            rw [counts, count_append, count_replicate, shape.nullBlock]
            simp [Ne.symm real]
        · rw [evictable_stateHit]
          exact fewer
      · contradiction

end

/-! Skipped blocks are not at the end. -/

/-- Entries of one table before `start` are cleared. -/
structure Cleared (manager manager' : Manager Digest) (requestId : ReqId) (start : Nat) : Prop where
  blockSize : manager'.blockSize = manager.blockSize
  length : (manager'.blocksOf requestId).length = (manager.blocksOf requestId).length
  kept : (manager'.blocksOf requestId).drop start = (manager.blocksOf requestId).drop start
  allocated : manager'.allocatedBlockReqs = manager.allocatedBlockReqs
  last : manager'.lastStateBlockIdx = manager.lastStateBlockIdx
  others : ∀ other, other ≠ requestId → Unmoved manager manager' other

theorem cleared_refl {manager : Manager Digest} {requestId : ReqId} {start : Nat} :
    Cleared manager manager requestId start :=
  ⟨rfl, rfl, rfl, rfl, rfl, fun _ _ => unmoved_refl⟩

theorem Cleared.trans {first second third : Manager Digest} {requestId : ReqId} {start : Nat}
    (one : Cleared first second requestId start) (two : Cleared second third requestId start) :
    Cleared first third requestId start :=
  ⟨two.blockSize.trans one.blockSize, two.length.trans one.length, two.kept.trans one.kept,
    two.allocated.trans one.allocated, two.last.trans one.last,
    fun other differs => (one.others other differs).trans (two.others other differs)⟩

theorem cleared_setBlocks {manager : Manager Digest} {requestId : ReqId} {start : Nat}
    (table : List BlockId) (length : table.length = (manager.blocksOf requestId).length)
    (kept : table.drop start = (manager.blocksOf requestId).drop start) :
    Cleared manager (manager.setBlocks requestId table) requestId start := by
  have now : (manager.setBlocks requestId table).blocksOf requestId = table := by
    rw [blocksOf_set, if_pos rfl]
  constructor
  · rfl
  · rw [now, length]
  · rw [now, kept]
  · rfl
  · rfl
  · exact fun other differs => setBlocks_unmoved differs

theorem Holding.cleared {spec : MambaSpec} {nullBlock : BlockId} {manager manager' : Manager Digest}
    {requestId : ReqId} {numTokens : Int} {start : Nat}
    (holding : Holding spec nullBlock manager requestId numTokens)
    (cleared : Cleared manager manager' requestId start)
    (early : start ≤ (manager.blocksOf requestId).length - (1 + spec.numSpeculativeBlocks)) :
    Holding spec nullBlock manager' requestId numTokens := by
  constructor
  · rw [cleared.allocated]
    exact holding.allocated
  · rw [cleared.length, cleared.blockSize]
    exact holding.length
  · apply holding.ends.congr cleared.length
    unfold lastBlocks
    rw [cleared.length, ← Nat.add_sub_cancel' early, ← drop_drop, ← drop_drop, cleared.kept]
  · rw [cleared.last, cleared.blockSize]
    exact holding.last

variable (spec : MambaSpec)

section
variable (manager manager' : Manager Digest)
include manager manager'

theorem baseRemoveSkippedBlocks_cleared
    {pool pool' : Pool Digest} {requestId : ReqId} (kind : manager.kvCacheSpec = .mamba spec)
    (totalComputedTokens : Int) {start : Nat}
    (early : (totalComputedTokens - 1) / manager.blockSize ≤ start)
    (removed : manager.baseRemoveSkippedBlocks pool requestId totalComputedTokens =
      some (pool', manager')) : Cleared manager manager' requestId start := by
  have skipped : manager.getNumSkippedTokens totalComputedTokens = totalComputedTokens - 1 := by
    simp only [Manager.getNumSkippedTokens, kind]
  unfold Manager.baseRemoveSkippedBlocks at removed
  simp only [skipped] at removed
  split at removed
  · obtain ⟨rfl, rfl⟩ : pool = pool' ∧ manager = manager' := by simpa using removed
    exact cleared_refl
  · obtain ⟨final, -, same⟩ := map_eq_some_iff.mp removed
    obtain ⟨rfl, rfl⟩ := Prod.mk.inj same
    obtain ⟨length, kept⟩ := skipLoop_drop pool.nullBlock
      (min ((totalComputedTokens - 1) / manager.blockSize)
        ((manager.blocksOf requestId).length : Int)).toNat start (manager.blocksOf requestId)
      (by omega)
    exact cleared_setBlocks _ length kept

theorem freeLastStateBlock_cleared {pool pool' : Pool Digest}
    {requestId : ReqId} (numComputedTokens : Int) {start : Nat}
    (early : ∀ index, manager.lastStateBlockIdx.get? requestId = some index →
      0 ≤ index ∧ index < start)
    (removed : manager.freeLastStateBlock pool requestId numComputedTokens =
      some (pool', manager')) : Cleared manager manager' requestId start := by
  unfold Manager.freeLastStateBlock at removed
  split at removed
  · obtain ⟨rfl, rfl⟩ : pool = pool' ∧ manager = manager' := by simpa using removed
    exact cleared_refl
  · rename_i index found
    obtain ⟨nonneg, below⟩ := early index found
    split at removed
    · simp only at removed
      split at removed
      · contradiction
      · split at removed
        · obtain ⟨rfl, rfl⟩ : pool = pool' ∧ manager = manager' := by simpa using removed
          exact cleared_refl
        · obtain ⟨final, -, same⟩ := map_eq_some_iff.mp removed
          obtain ⟨rfl, rfl⟩ := Prod.mk.inj same
          apply cleared_setBlocks
          · exact length_set
          · rw [drop_set_of_lt (by omega)]
    · obtain ⟨rfl, rfl⟩ : pool = pool' ∧ manager = manager' := by simpa using removed
      exact cleared_refl

theorem removeSkippedBlocks_cleared {pool pool' : Pool Digest}
    {requestId : ReqId} (kind : manager.kvCacheSpec = .mamba spec) {totalComputedTokens : Int}
    (start : Nat)
    (skipped : (max 0 (totalComputedTokens - spec.numSpeculativeBlocks) - 1) / manager.blockSize ≤
      start)
    (early : ∀ index, manager.lastStateBlockIdx.get? requestId = some index →
      0 ≤ index ∧ index < start)
    (removed : manager.removeSkippedBlocks pool requestId totalComputedTokens =
      some (pool', manager')) : Cleared manager manager' requestId start := by
  unfold Manager.removeSkippedBlocks at removed
  simp only [kind] at removed
  split at removed
  · contradiction
  · rename_i middle manager₁ base
    have first := baseRemoveSkippedBlocks_cleared spec manager manager₁ kind _ skipped base
    split at removed
    · apply first.trans
      apply freeLastStateBlock_cleared manager₁ manager' _ _ removed
      rw [first.last]
      exact early
    · obtain ⟨rfl, rfl⟩ : middle = pool' ∧ manager₁ = manager' := by simpa using removed
      exact first

/-- The computed tokens never reach beyond the last allocation, so its end stays. -/
theorem removeSkippedBlocks_holding {pool pool' : Pool Digest}
    {requestId : ReqId} (kind : manager.kvCacheSpec = .mamba spec)
    (positive : 0 < manager.blockSize) {before totalComputedTokens : Int}
    (holding : Holding spec pool.nullBlock manager requestId before) (begun : 0 < before)
    (computed : totalComputedTokens ≤ before)
    (removed : manager.removeSkippedBlocks pool requestId totalComputedTokens =
      some (pool', manager')) :
    Holding spec pool.nullBlock manager' requestId before ∧
      ∀ other, other ≠ requestId → Unmoved manager manager' other := by
  have length := holding.length
  have last := holding.last
  have cleared := removeSkippedBlocks_cleared spec manager manager' kind ((manager.blocksOf requestId).length - (1 + spec.numSpeculativeBlocks))
    (by
      have below := (lt_cdiv_iff before ((max 0 (totalComputedTokens - spec.numSpeculativeBlocks) - 1) /
        manager.blockSize) positive).mpr (by
          have whole := Int.ediv_mul_le (max 0 (totalComputedTokens - spec.numSpeculativeBlocks) - 1)
            (b := (manager.blockSize : Int)) (by omega)
          omega)
      omega)
    (by
      intro index found
      have := last index found
      omega)
    removed
  exact ⟨holding.cleared cleared (Nat.le_refl _), cleared.others⟩

end

end VllmDcu.AlignTables

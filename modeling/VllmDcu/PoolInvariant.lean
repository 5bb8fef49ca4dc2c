import VllmDcu.CacheManager
import VllmDcu.TableTurns

/-! The block pool under every operation of the manager: the accounts of the pool
balance the tables of all managers together, in every state that the operations
reach. -/
namespace VllmDcu.PoolInvariant
open Requests FreeBlockQueue BlockPool KVCacheInterface SingleTypeManager CacheManager
open PoolCache PoolAccounts TableAccounts TableTurns LinkedQueue List Option Function

variable {Digest : Type}

/-- The entries of a block in the tables of all managers. -/
def references (managers : List (Manager Digest)) (block : BlockId) : Nat :=
  (managers.map fun manager => occurrences manager block).sum

/-- `rest` counts the entries of managers outside the list. -/
structure Balanced (pool : Pool Digest) (managers : List (Manager Digest)) (rest : BlockId → Nat) :
    Prop where
  hashed : Hashed pool
  counted : Counted pool (fun block => references managers block + rest block) fun _ => False
  single : ∀ manager ∈ managers, ∀ requestId, Single pool.nullBlock (manager.blocksOf requestId)

theorem balanced_cons (pool : Pool Digest) (manager : Manager Digest)
    (managers : List (Manager Digest)) (rest : BlockId → Nat) :
    Balanced pool (manager :: managers) rest ↔
      Sound pool manager (fun block => references managers block + rest block) ∧
        ∀ other ∈ managers, ∀ requestId, Single pool.nullBlock (other.blocksOf requestId) := by
  have sum (block : BlockId) : references (manager :: managers) block + rest block =
      occurrences manager block + (references managers block + rest block) := by
    simp only [references, map_cons, sum_cons]
    omega
  constructor
  · intro balanced
    constructor
    · constructor
      · exact balanced.hashed
      · apply counted_congr pool _ _ _ _ balanced.counted
        · intro block _
          exact (sum block).symm
        · simp
      · exact balanced.single manager mem_cons_self
    · exact fun other member => balanced.single other (mem_cons_of_mem _ member)
  · rintro ⟨sound, others⟩
    constructor
    · exact sound.hashed
    · apply counted_congr pool _ _ _ _ sound.counted
      · intro block _
        exact sum block
      · simp
    · intro other member
      rcases mem_cons.mp member with rfl | inRest
      · exact sound.single
      · exact others other inRest

/-- A call that keeps the accounts for one manager keeps them for all. -/
theorem mapManagers_balanced {Result : Type}
    (call : Pool Digest → Manager Digest → Option (Result × Pool Digest × Manager Digest))
    (base pool : Pool Digest) (managers : List (Manager Digest)) (rest : BlockId → Nat)
    (keeps : ∀ manager ∈ managers, ∀ pool rest result pool' manager', SameShape base pool →
      Sound pool manager rest → call pool manager = some (result, pool', manager') →
        Sound pool' manager' rest ∧ SameShape pool pool' ∧ SameManager manager manager')
    (shape : SameShape base pool) (balanced : Balanced pool managers rest)
    (results : List Result) (pool' : Pool Digest) (managers' : List (Manager Digest))
    (mapped : mapManagers call pool managers = some (results, pool', managers')) :
    Balanced pool' managers' rest ∧ SameShape pool pool' ∧
      List.Forall₂ SameManager managers managers' := by
  induction managers generalizing pool rest results managers' with
  | nil =>
    simp only [mapManagers, some.injEq, Prod.mk.injEq] at mapped
    obtain ⟨_, rfl, rfl⟩ := mapped
    exact ⟨balanced, SameShape.refl pool, Forall₂.nil⟩
  | cons manager managers ih =>
    simp only [mapManagers] at mapped
    cases called : call pool manager with
    | none => simp [called] at mapped
    | some outcome =>
      obtain ⟨result, pool₁, manager₁⟩ := outcome
      simp only [called, map_eq_some_iff, Prod.exists, Prod.mk.injEq] at mapped
      obtain ⟨results', final, others, tail, rfl, rfl, rfl⟩ := mapped
      obtain ⟨sound, singles⟩ := (balanced_cons pool manager managers rest).mp balanced
      obtain ⟨soundNow, shapeNow, same⟩ := keeps manager mem_cons_self pool _ result pool₁
        manager₁ shape sound called
      -- for the managers that follow, this one belongs to the rest
      have balancedTail : Balanced pool₁ managers fun block =>
          occurrences manager₁ block + rest block := by
        constructor
        · exact soundNow.hashed
        · apply counted_congr pool₁ _ _ _ _ soundNow.counted
          · omega
          · simp
        · intro other member requestId
          rw [shapeNow.nullBlock]
          exact singles other member requestId
      obtain ⟨balancedNow, shapeTail, sameTail⟩ := ih pool₁ _
        (fun other member => keeps other (mem_cons_of_mem _ member))
        (shape.trans shapeNow) balancedTail results' others tail
      refine ⟨?_, shapeNow.trans shapeTail, Forall₂.cons same sameTail⟩
      rw [balanced_cons]
      constructor
      · constructor
        · exact balancedNow.hashed
        · apply counted_congr final _ _ _ _ balancedNow.counted
          · omega
          · simp
        · intro requestId
          rw [shapeTail.nullBlock]
          exact soundNow.single requestId
      · exact balancedNow.single

/-! The coordinator. -/

structure Accounted (coordinator : Coordinator Digest) : Prop where
  balanced : Balanced coordinator.blockPool coordinator.singleTypeManagers fun _ => 0
  managed : ∀ manager ∈ coordinator.singleTypeManagers,
    Managed manager.kvCacheSpec ∧ 0 < manager.blockSize

/-- The accounts with groups of any kind. -/
structure Settled (coordinator : Coordinator Digest) : Prop where
  balanced : Balanced coordinator.blockPool coordinator.singleTypeManagers fun _ => 0
  windowed : ∀ manager ∈ coordinator.singleTypeManagers,
    Windowed manager.kvCacheSpec ∧ 0 < manager.blockSize

theorem Accounted.settled {coordinator : Coordinator Digest} (accounted : Accounted coordinator) :
    Settled coordinator := by
  constructor
  · exact accounted.balanced
  · intro manager member
    obtain ⟨managed, positive⟩ := accounted.managed manager member
    exact ⟨managed.windowed, positive⟩

/-- What no operation of the coordinator changes. -/
structure SameCoordinator (coordinator coordinator' : Coordinator Digest) : Prop where
  shape : SameShape coordinator.blockPool coordinator'.blockPool
  managers : List.Forall₂ SameManager coordinator.singleTypeManagers
    coordinator'.singleTypeManagers

theorem forall₂_right {managers managers' : List (Manager Digest)}
    (same : List.Forall₂ SameManager managers managers') :
    ∀ manager' ∈ managers', ∃ manager ∈ managers, SameManager manager manager' := by
  induction same with
  | nil => simp
  | cons here _ ih =>
    intro manager' member
    rcases mem_cons.mp member with rfl | inRest
    · exact ⟨_, mem_cons_self, here⟩
    · obtain ⟨manager, inOld, same⟩ := ih manager' inRest
      exact ⟨manager, mem_cons_of_mem _ inOld, same⟩

theorem sameManagers_trans (first second third : List (Manager Digest))
    (one : List.Forall₂ SameManager first second) (two : List.Forall₂ SameManager second third) :
    List.Forall₂ SameManager first third := by
  induction one generalizing third with
  | nil => exact two
  | cons here _ ih =>
    cases two with
    | cons there rest => exact Forall₂.cons (here.trans there) (ih _ rest)

variable (coordinator : Coordinator Digest)

theorem sameCoordinator_refl : SameCoordinator coordinator coordinator :=
  ⟨SameShape.refl _, forall₂_same.mpr fun manager _ => SameManager.refl manager⟩

theorem SameCoordinator.trans {first second third : Coordinator Digest}
    (one : SameCoordinator first second) (two : SameCoordinator second third) :
    SameCoordinator first third := by
  constructor
  · exact one.shape.trans two.shape
  · exact sameManagers_trans _ _ _ one.managers two.managers

theorem kinds_after {kinds : KVCacheSpec → Prop} {coordinator coordinator' : Coordinator Digest}
    (same : SameCoordinator coordinator coordinator')
    (all : ∀ manager ∈ coordinator.singleTypeManagers,
      kinds manager.kvCacheSpec ∧ 0 < manager.blockSize) :
    ∀ manager ∈ coordinator'.singleTypeManagers,
      kinds manager.kvCacheSpec ∧ 0 < manager.blockSize := by
  intro manager' member
  obtain ⟨manager, inOld, keeps⟩ := forall₂_right same.managers manager' member
  rw [keeps.kvCacheSpec, keeps.blockSize]
  exact all manager inOld

theorem Accounted.after {coordinator coordinator' : Coordinator Digest}
    (accounted : Accounted coordinator)
    (kept : Settled coordinator' ∧ SameCoordinator coordinator coordinator') :
    Accounted coordinator' ∧ SameCoordinator coordinator coordinator' :=
  ⟨⟨kept.1.balanced, kinds_after kept.2 accounted.managed⟩, kept.2⟩

theorem forEach_settled
    {call : Pool Digest → Manager Digest → Option (Pool Digest × Manager Digest)}
    (settled : Settled coordinator)
    (keeps : ∀ manager ∈ coordinator.singleTypeManagers, ∀ pool rest pool' manager',
      SameShape coordinator.blockPool pool → Sound pool manager rest →
        call pool manager = some (pool', manager') →
          Sound pool' manager' rest ∧ SameShape pool pool' ∧ SameManager manager manager')
    {next : Coordinator Digest} (done : coordinator.forEach call = some next) :
    Settled next ∧ SameCoordinator coordinator next := by
  unfold Coordinator.forEach at done
  rw [map_eq_some_iff] at done
  obtain ⟨⟨results, pool, managers⟩, mapped, rfl⟩ := done
  obtain ⟨balanced, shape, same⟩ := mapManagers_balanced _ coordinator.blockPool
    coordinator.blockPool coordinator.singleTypeManagers _
    (by
      intro manager member pool rest result pool' manager' shape sound called
      obtain ⟨changed, done, equal⟩ := map_eq_some_iff.mp called
      obtain ⟨_, rfl⟩ := Prod.mk.inj equal
      exact keeps manager member pool rest pool' manager' shape sound done)
    (SameShape.refl _) settled.balanced results pool managers mapped
  have keptAll : SameCoordinator coordinator
      { coordinator with blockPool := pool, singleTypeManagers := managers } := ⟨shape, same⟩
  exact ⟨⟨balanced, kinds_after keptAll settled.windowed⟩, keptAll⟩

variable (requestId : ReqId)

theorem removeSkippedBlocks_settled {totalComputedTokens : Int} (settled : Settled coordinator)
    {next : Coordinator Digest}
    (done : coordinator.removeSkippedBlocks requestId totalComputedTokens = some next) :
    Settled next ∧ SameCoordinator coordinator next := by
  apply forEach_settled coordinator settled _ done
  intro manager _ pool rest pool' manager' _ sound
  exact removeSkippedBlocks_sound manager pool sound

theorem removeSkippedBlocks_accounted {totalComputedTokens : Int}
    (accounted : Accounted coordinator) (next : Coordinator Digest)
    (done : coordinator.removeSkippedBlocks requestId totalComputedTokens = some next) :
    Accounted next ∧ SameCoordinator coordinator next :=
  accounted.after (removeSkippedBlocks_settled coordinator requestId accounted.settled done)

theorem free_settled (settled : Settled coordinator) (next : Coordinator Digest)
    (done : coordinator.free requestId = some next) :
    Settled next ∧ SameCoordinator coordinator next := by
  apply forEach_settled coordinator settled _ done
  intro manager _ pool rest pool' manager' _ sound
  exact free_sound manager pool sound

/-- Without sinks no block is taken at the start. -/
theorem initManagers_balanced (kinds : KVCacheSpec → Prop) (enableCaching : Bool) (dcpWorldSize pcpWorldSize : Nat)
    (parallel : 0 < dcpWorldSize * pcpWorldSize) (specs : List KVCacheSpec) (groupId : Nat)
    (pool : Pool Digest) (hashed : Hashed pool)
    (counted : Counted pool (fun _ => 0) fun _ => False)
    (all : ∀ spec ∈ specs, kinds spec ∧ 0 < spec.blockSize)
    (sinkless : ∀ spec ∈ specs, ∀ sink, spec ≠ .sinkFullAttention sink) (pool' : Pool Digest)
    (managers : List (Manager Digest))
    (made : Coordinator.initManagers enableCaching dcpWorldSize pcpWorldSize specs groupId pool =
      some (pool', managers)) :
    Balanced pool' managers (fun _ => 0) ∧
      ∀ manager ∈ managers, kinds manager.kvCacheSpec ∧ 0 < manager.blockSize := by
  induction specs generalizing groupId managers with
  | nil =>
    obtain ⟨rfl, rfl⟩ : pool = pool' ∧ [] = managers := by
      simpa [Coordinator.initManagers] using made
    refine ⟨⟨hashed, ?_, by simp⟩, by simp⟩
    exact counted
  | cons spec rest ih =>
    obtain ⟨here, positive⟩ := all spec mem_cons_self
    have sinkless' := sinkless spec mem_cons_self
    simp only [Coordinator.initManagers] at made
    obtain ⟨manager, single, noBlocks, kind, size⟩ : ∃ manager : Manager Digest,
        Manager.init pool spec enableCaching groupId dcpWorldSize pcpWorldSize =
          some (pool, manager) ∧ manager.reqToBlocks = Dict.empty ∧ manager.kvCacheSpec = spec ∧
        manager.blockSize = spec.blockSize * (dcpWorldSize * pcpWorldSize) := by
      cases spec with
      | sinkFullAttention sink => exact absurd rfl (sinkless' sink)
      | fullAttention | mlaAttention | slidingWindow | chunkedLocalAttention | mamba
      | crossAttention => exact ⟨_, rfl, rfl, rfl, rfl⟩
    rw [single] at made
    simp only [map_eq_some_iff, Prod.exists, Prod.mk.injEq] at made
    obtain ⟨final, others, tail, rfl, rfl⟩ := made
    obtain ⟨balanced, allRest⟩ := ih (groupId + 1)
      (fun other member => all other (mem_cons_of_mem _ member))
      (fun other member => sinkless other (mem_cons_of_mem _ member)) others tail
    have noTable (requestId : ReqId) : manager.blocksOf requestId = [] := by
      rw [Manager.blocksOf, noBlocks]
      rfl
    constructor
    · rw [balanced_cons]
      constructor
      · constructor
        · exact balanced.hashed
        · apply counted_congr final _ _ _ _ balanced.counted
          · intro block _
            rw [occurrences, noBlocks]
            simp
          · simp
        · intro requestId block _
          rw [noTable requestId]
          exact Nat.zero_le 1
      · exact balanced.single
    · intro other member
      rcases mem_cons.mp member with rfl | inRest
      · rw [kind, size]
        exact ⟨here, Nat.mul_pos positive parallel⟩
      · exact allRest other inRest

section
variable [DecidableEq Digest]

theorem cacheBlocks_settled {coordinator : Coordinator Digest} {request : Request Digest}
    {numComputedTokens : Int} (settled : Settled coordinator) {next : Coordinator Digest}
    (done : coordinator.cacheBlocks request numComputedTokens = some next) :
    Settled next ∧ SameCoordinator coordinator next := by
  apply forEach_settled coordinator settled _ done
  intro manager _ pool rest pool' manager' _ sound
  exact cacheBlocks_sound sound

/-- The computed blocks that are handed in fit every group. -/
def HitsFit (coordinator : Coordinator Digest) (newComputedBlocks : Option KVCacheBlocks)
    (numLocalComputedTokens numExternalComputedTokens : Int) : Prop :=
  ∀ manager ∈ coordinator.singleTypeManagers, ∀ blocks,
    blocksAt newComputedBlocks manager.kvCacheGroupId = some blocks →
      Fits coordinator.blockPool manager blocks numLocalComputedTokens numExternalComputedTokens

omit [DecidableEq Digest] in
theorem hitsFit_after {coordinator coordinator' : Coordinator Digest}
    (same : SameCoordinator coordinator coordinator') {newComputedBlocks : Option KVCacheBlocks}
    {numLocalComputedTokens numExternalComputedTokens : Int}
    (fits : HitsFit coordinator newComputedBlocks numLocalComputedTokens
      numExternalComputedTokens) :
    HitsFit coordinator' newComputedBlocks numLocalComputedTokens numExternalComputedTokens := by
  intro manager' member blocks given
  obtain ⟨manager, inOld, keeps⟩ := forall₂_right same.managers manager' member
  rw [keeps.kvCacheGroupId] at given
  have fit := fits manager inOld blocks given
  constructor
  · rw [same.shape.nullBlock, same.shape.numGpuBlocks]
    exact fit.valid
  · rw [same.shape.nullBlock]
    exact fit.single
  · rw [keeps.blockSize]
    exact fit.computed

theorem allocateNewComputedBlocks_settled {coordinator : Coordinator Digest}
    {requestId : ReqId} {newComputedBlocks : Option KVCacheBlocks}
    {numLocalComputedTokens numExternalComputedTokens : Int} (settled : Settled coordinator)
    (fits : HitsFit coordinator newComputedBlocks numLocalComputedTokens numExternalComputedTokens)
    {next : Coordinator Digest}
    (done : coordinator.allocateNewComputedBlocks requestId newComputedBlocks
      numLocalComputedTokens numExternalComputedTokens = some next) :
    Settled next ∧ SameCoordinator coordinator next := by
  apply forEach_settled coordinator settled _ done
  intro manager member pool rest pool' manager' shape sound called
  split at called
  · contradiction
  · rename_i blocks given
    obtain ⟨windowed, positive⟩ := settled.windowed manager member
    have fit := fits manager member blocks given
    apply allocateNewComputedBlocks_sound windowed positive sound _ called
    constructor
    · rw [shape.nullBlock, shape.numGpuBlocks]
      exact fit.valid
    · rw [shape.nullBlock]
      exact fit.single
    · exact fit.computed

theorem allocateNewComputedBlocks_accounted {coordinator : Coordinator Digest}
    {requestId : ReqId} {newComputedBlocks : Option KVCacheBlocks}
    {numLocalComputedTokens numExternalComputedTokens : Int} (accounted : Accounted coordinator)
    (fits : HitsFit coordinator newComputedBlocks numLocalComputedTokens numExternalComputedTokens)
    (next : Coordinator Digest)
    (done : coordinator.allocateNewComputedBlocks requestId newComputedBlocks
      numLocalComputedTokens numExternalComputedTokens = some next) :
    Accounted next ∧ SameCoordinator coordinator next :=
  accounted.after (allocateNewComputedBlocks_settled accounted.settled fits done)

theorem allocateNewBlocks_settled {coordinator : Coordinator Digest} {requestId : ReqId}
    {numTokens numTokensMainModel : Int} (numEncoderTokens : Nat)
    (settled : Settled coordinator) {newBlocks : KVCacheBlocks} {next : Coordinator Digest}
    (done : coordinator.allocateNewBlocks requestId numTokens numTokensMainModel numEncoderTokens =
      some (newBlocks, next)) :
    Settled next ∧ SameCoordinator coordinator next := by
  unfold Coordinator.allocateNewBlocks at done
  rw [map_eq_some_iff] at done
  obtain ⟨⟨results, pool, managers⟩, mapped, same⟩ := done
  obtain ⟨_, rfl⟩ := Prod.mk.inj same
  obtain ⟨balanced, shape, same⟩ := mapManagers_balanced _ coordinator.blockPool
    coordinator.blockPool coordinator.singleTypeManagers _
    (by
      intro manager _ pool rest result pool' manager' _ sound called
      exact allocateNewBlocks_sound sound
        called)
    (SameShape.refl _) settled.balanced results pool managers mapped
  have keptAll : SameCoordinator coordinator
      { coordinator with blockPool := pool, singleTypeManagers := managers } := ⟨shape, same⟩
  exact ⟨⟨balanced, kinds_after keptAll settled.windowed⟩, keptAll⟩

/-! The manager. -/

variable (manager : KVCacheManager Digest)

theorem allocateSlots_settled {request : Request Digest} {args : KVCacheManager.AllocateArgs}
    (settled : Settled manager.coordinator)
    (fits : HitsFit manager.coordinator args.newComputedBlocks
      (request.numComputedTokens + args.numNewComputedTokens) args.numExternalComputedTokens)
    {slots : Option KVCacheBlocks} {next : KVCacheManager Digest}
    (done : manager.allocateSlots request args = some (slots, next)) :
    Settled next.coordinator ∧ SameCoordinator manager.coordinator next.coordinator := by
  unfold KVCacheManager.allocateSlots at done
  simp only at done
  split at done
  · contradiction
  · split at done
    · contradiction
    · rename_i removed skipped
      obtain ⟨setRemoved, sameRemoved⟩ := removeSkippedBlocks_settled manager.coordinator
        request.requestId settled skipped
      split at done
      · contradiction
      · split at done
        · obtain ⟨_, rfl⟩ := Prod.mk.inj (some.inj done)
          exact ⟨setRemoved, sameRemoved⟩
        · split at done
          · contradiction
          · rename_i computed added
            -- the computed blocks are added, if there are any
            have step : Settled computed ∧ SameCoordinator manager.coordinator computed := by
              split at added
              · obtain ⟨now, same⟩ := allocateNewComputedBlocks_settled setRemoved
                  (hitsFit_after sameRemoved fits) added
                exact ⟨now, sameRemoved.trans same⟩
              · cases added
                exact ⟨setRemoved, sameRemoved⟩
            obtain ⟨setComputed, sameComputed⟩ := step
            split at done
            · contradiction
            · rename_i newBlocks allocated result
              obtain ⟨setAllocated, sameAllocated⟩ := allocateNewBlocks_settled _ setComputed result
              have upTo := sameComputed.trans sameAllocated
              split at done
              · obtain ⟨_, rfl⟩ := Prod.mk.inj (some.inj done)
                exact ⟨setAllocated, upTo⟩
              · rw [map_eq_some_iff] at done
                obtain ⟨cached, caching, same⟩ := done
                obtain ⟨_, rfl⟩ := Prod.mk.inj same
                obtain ⟨setCached, sameCached⟩ := cacheBlocks_settled setAllocated caching
                exact ⟨setCached, upTo.trans sameCached⟩

/-- The block pool is consistent with the tables of all managers. -/
structure Consistent (manager : KVCacheManager Digest) : Prop where
  refCnt : ∀ block, block ≠ manager.coordinator.blockPool.nullBlock →
    (manager.coordinator.blockPool.blocks block).refCnt =
      references manager.coordinator.singleTypeManagers block
  queue : ∃ free,
    Represents manager.coordinator.blockPool.freeBlockQueue.links free ∧
      manager.coordinator.blockPool.freeBlockQueue.numFreeBlocks = free.length ∧
      free.Nodup ∧
      manager.coordinator.blockPool.nullBlock ∉ free ∧
      ∀ block, block ≠ manager.coordinator.blockPool.nullBlock →
        (block ∈ free ↔ block < manager.coordinator.blockPool.numGpuBlocks ∧
          (manager.coordinator.blockPool.blocks block).refCnt = 0)
  links : ∀ left right,
    manager.coordinator.blockPool.freeBlockQueue.links.next left = some right ↔
      manager.coordinator.blockPool.freeBlockQueue.links.prev right = some left
  blockHash : ∀ block key,
    (manager.coordinator.blockPool.blocks block).blockHash = some key ↔
      block ∈ members (manager.coordinator.blockPool.cachedBlockHashToBlock key)

omit [DecidableEq Digest] in
theorem accounted_consistent (accounted : Accounted manager.coordinator) : Consistent manager := by
  have counted := accounted.balanced.counted
  have refCnt (block : BlockId) (real : block ≠ manager.coordinator.blockPool.nullBlock) :
      (manager.coordinator.blockPool.blocks block).refCnt =
        references manager.coordinator.singleTypeManagers block := counted.counts block real
  obtain ⟨free, holds, mem⟩ := counted.queue
  constructor
  · exact refCnt
  · refine ⟨free, holds.represents, holds.count, holds.represents.distinct, ?_, ?_⟩
    · exact fun inFree => ((mem _).mp inFree).2.1 rfl
    · intro block real
      rw [mem block, refCnt block real]
      simp [real]
  · exact next_iff_prev _ free holds.represents
  · exact accounted.balanced.hashed.mem

/-- One call on the manager that succeeds; `allocate_slots` may also find too few
blocks. -/
inductive Step (manager : KVCacheManager Digest) : KVCacheManager Digest → Prop where
  | allocateSlots {next : KVCacheManager Digest} (request : Request Digest)
      (args : KVCacheManager.AllocateArgs) (slots : Option KVCacheBlocks)
      (fits : HitsFit manager.coordinator args.newComputedBlocks
        (request.numComputedTokens + args.numNewComputedTokens) args.numExternalComputedTokens)
      (done : manager.allocateSlots request args = some (slots, next)) : Step manager next
  | free {next : KVCacheManager Digest} (request : Request Digest)
      (done : manager.free request = some next) : Step manager next
  | removeSkippedBlocks {next : KVCacheManager Digest} (requestId : ReqId)
      (totalComputedTokens : Int)
      (done : manager.removeSkippedBlocks requestId totalComputedTokens = some next) :
      Step manager next
  | cacheBlocks {next : KVCacheManager Digest} (request : Request Digest) (numComputedTokens : Int)
      (done : manager.cacheBlocks request numComputedTokens = some next) : Step manager next
  | evictBlocks {next : KVCacheManager Digest} (blockIds : List BlockId)
      (done : manager.evictBlocks blockIds = some next) : Step manager next
  | resetPrefixCache : Step manager manager.resetPrefixCache.2
  | newStepStarts : Step manager manager.newStepStarts

inductive Reachable : KVCacheManager Digest → Prop where
  | init {manager : KVCacheManager Digest} (config : KVCacheConfig)
      (maxModelLen hashBlockSize : Nat) (enableCaching useEagle enableKvCacheEvents : Bool)
      (dcpWorldSize pcpWorldSize : Nat) (parallel : 0 < dcpWorldSize * pcpWorldSize)
      (managed : ∀ spec ∈ config.kvCacheGroups, Managed spec ∧ 0 < spec.blockSize)
      (made : KVCacheManager.init config maxModelLen hashBlockSize enableCaching useEagle
        enableKvCacheEvents dcpWorldSize pcpWorldSize = some manager) : Reachable manager
  | step {manager next : KVCacheManager Digest} (reached : Reachable manager)
      (step : Step manager next) : Reachable next

omit [DecidableEq Digest] in
theorem init_balanced (kinds : KVCacheSpec → Prop) (config : KVCacheConfig)
    (maxModelLen hashBlockSize : Nat) (enableCaching useEagle enableKvCacheEvents : Bool)
    (dcpWorldSize pcpWorldSize : Nat) (parallel : 0 < dcpWorldSize * pcpWorldSize)
    (all : ∀ spec ∈ config.kvCacheGroups, kinds spec ∧ 0 < spec.blockSize)
    (sinkless : ∀ spec ∈ config.kvCacheGroups, ∀ sink, spec ≠ .sinkFullAttention sink)
    (manager : KVCacheManager Digest)
    (made : KVCacheManager.init config maxModelLen hashBlockSize enableCaching useEagle
      enableKvCacheEvents dcpWorldSize pcpWorldSize = some manager) :
    Balanced manager.coordinator.blockPool manager.coordinator.singleTypeManagers (fun _ => 0) ∧
      ∀ single ∈ manager.coordinator.singleTypeManagers,
        kinds single.kvCacheSpec ∧ 0 < single.blockSize := by
  unfold KVCacheManager.init at made
  rw [map_eq_some_iff] at made
  obtain ⟨coordinator, made, rfl⟩ := made
  unfold Coordinator.init at made
  simp only at made
  split at made
  · contradiction
  · split at made
    · contradiction
    · rename_i pool start
      rw [map_eq_some_iff] at made
      obtain ⟨⟨final, managers⟩, initialized, rfl⟩ := made
      obtain ⟨hashed, counted, _⟩ := init_counted _ _ _ _ pool start
      exact initManagers_balanced kinds _ _ _ parallel _ _ pool hashed counted all sinkless final
        managers initialized

omit [DecidableEq Digest] in
theorem init_accounted (config : KVCacheConfig) (maxModelLen hashBlockSize : Nat)
    (enableCaching useEagle enableKvCacheEvents : Bool) (dcpWorldSize pcpWorldSize : Nat)
    (parallel : 0 < dcpWorldSize * pcpWorldSize)
    (managed : ∀ spec ∈ config.kvCacheGroups, Managed spec ∧ 0 < spec.blockSize)
    (manager : KVCacheManager Digest)
    (made : KVCacheManager.init config maxModelLen hashBlockSize enableCaching useEagle
      enableKvCacheEvents dcpWorldSize pcpWorldSize = some manager) :
    Accounted manager.coordinator := by
  obtain ⟨balanced, all⟩ := init_balanced Managed config maxModelLen hashBlockSize enableCaching
    useEagle enableKvCacheEvents dcpWorldSize pcpWorldSize parallel managed
    (by
      rintro _ member sink rfl
      exact (managed _ member).1)
    manager made
  exact ⟨balanced, all⟩

omit [DecidableEq Digest] in
/-- The accounts only depend on the pool's own fields. -/
theorem settled_pool {coordinator : Coordinator Digest} {pool : Pool Digest}
    (settled : Settled coordinator) (hashed : Hashed pool)
    (same : SameCounts coordinator.blockPool pool) :
    Settled { coordinator with blockPool := pool } ∧
      SameCoordinator coordinator { coordinator with blockPool := pool } := by
  refine ⟨?_, same.shape, (sameCoordinator_refl coordinator).managers⟩
  constructor
  · constructor
    · exact hashed
    · exact sameCounts_counted same settled.balanced.counted
    · intro manager member requestId
      rw [same.shape.nullBlock]
      exact settled.balanced.single manager member requestId
  · exact settled.windowed

def fresh (manager : Manager Digest) : Manager Digest :=
  match manager.kvCacheSpec with
  | .mamba _ => manager.newStepStarts
  | _ => manager

omit [DecidableEq Digest] in
theorem newStepStarts_settled {coordinator : Coordinator Digest} (settled : Settled coordinator) :
    Settled coordinator.newStepStarts ∧ SameCoordinator coordinator coordinator.newStepStarts := by
  have tables (manager : Manager Digest) : (fresh manager).reqToBlocks = manager.reqToBlocks := by
    unfold fresh
    split
    · rfl
    · rfl
  have config (manager : Manager Digest) : SameManager manager (fresh manager) := by
    unfold fresh
    split
    · exact ⟨rfl, rfl, rfl, rfl⟩
    · exact SameManager.refl manager
  have managers : coordinator.newStepStarts.singleTypeManagers =
      coordinator.singleTypeManagers.map fresh := rfl
  have same : SameCoordinator coordinator coordinator.newStepStarts := by
    constructor
    · exact SameShape.refl _
    · rw [managers, forall₂_map_right_iff]
      exact forall₂_same.mpr fun manager _ => config manager
  refine ⟨?_, same⟩
  constructor
  · constructor
    · exact settled.balanced.hashed
    · apply counted_congr _ _ _ _ _ settled.balanced.counted
      · intro block _
        rw [managers, references, List.map_map]
        simp only [comp_def, occurrences, tables]
        rfl
      · simp
    · intro manager member requestId
      rw [managers] at member
      obtain ⟨old, inOld, rfl⟩ := List.mem_map.mp member
      rw [Manager.blocksOf, tables]
      exact settled.balanced.single old inOld requestId
  · exact kinds_after same settled.windowed

theorem step_settled (next : KVCacheManager Digest) (settled : Settled manager.coordinator)
    (step : Step manager next) :
    Settled next.coordinator ∧ SameCoordinator manager.coordinator next.coordinator := by
  cases step with
  | allocateSlots request args slots fits done =>
    exact allocateSlots_settled manager settled fits done
  | free request done =>
    obtain ⟨coordinator, freed, rfl⟩ := map_eq_some_iff.mp done
    exact free_settled manager.coordinator request.requestId settled coordinator freed
  | removeSkippedBlocks requestId totalComputedTokens done =>
    obtain ⟨coordinator, removed, rfl⟩ := map_eq_some_iff.mp done
    exact removeSkippedBlocks_settled manager.coordinator requestId settled removed
  | cacheBlocks request numComputedTokens done =>
    unfold KVCacheManager.cacheBlocks at done
    split at done
    · obtain ⟨coordinator, cached, rfl⟩ := map_eq_some_iff.mp done
      exact cacheBlocks_settled settled cached
    · obtain rfl := some.inj done
      exact ⟨settled, sameCoordinator_refl manager.coordinator⟩
  | evictBlocks blockIds done =>
    obtain ⟨pool, evicted, rfl⟩ := map_eq_some_iff.mp done
    obtain ⟨hashed, same, _⟩ := evictBlocks_hashed manager.coordinator.blockPool blockIds
      settled.balanced.hashed pool evicted
    exact settled_pool settled hashed same
  | resetPrefixCache =>
    obtain ⟨hashed, same, _⟩ := resetPrefixCache_hashed settled.balanced.hashed
    exact settled_pool settled hashed same
  | newStepStarts => exact newStepStarts_settled settled

theorem reachable_accounted (reached : Reachable manager) : Accounted manager.coordinator := by
  induction reached with
  | init config maxModelLen hashBlockSize enableCaching useEagle enableKvCacheEvents dcpWorldSize
      pcpWorldSize parallel managed made =>
      exact init_accounted config maxModelLen hashBlockSize enableCaching useEagle
        enableKvCacheEvents dcpWorldSize pcpWorldSize parallel managed _ made
  | step _ step ih => exact (ih.after (step_settled _ _ ih.settled step)).1

end

/-! A request of six tokens in two groups. -/

def twoGroups : KVCacheConfig :=
  ⟨10, [.fullAttention ⟨⟨2, 1, 8, ⟨"float16", 2⟩, none⟩, 8, none, none⟩,
    .slidingWindow ⟨⟨2, 1, 8, ⟨"float16", 2⟩, none⟩, 3⟩]⟩

def sixTokens : RequestArgs Nat :=
  { requestId := 7
    promptTokenIds := some [1, 2, 3, 4, 5, 6]
    samplingParams := some ⟨5, 0, none, [], none, none⟩
    poolingParams := none
    clientIndex := 0
    arrivalTime := 0
    promptEmbeds := none
    mmFeatures := []
    loraRequest := none
    cacheSalt := none
    priority := 0
    structuredOutput := false
    blockHasher := some ⟨2, fun (parent, tokens, _) => 10 * parent + (tokens.headD 0).toNat, 1⟩
    resumable := false }

def sixTokenRequest : Request Nat := (Request.init sixTokens).get rfl

def emptyManager : KVCacheManager Nat :=
  (KVCacheManager.init twoGroups 100 2 true false false 1 1).get rfl

def usedManager : Option (Option KVCacheBlocks × KVCacheManager Nat) :=
  emptyManager.allocateSlots sixTokenRequest ⟨6, 0, none, 0, 0, false, 0⟩

end VllmDcu.PoolInvariant

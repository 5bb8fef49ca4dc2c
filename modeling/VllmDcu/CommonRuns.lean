import VllmDcu.HitHashes

/-! Runs of a manager whose groups all use full attention, and what
`get_num_common_prefix_blocks` counts in the states they reach. -/
namespace VllmDcu.CommonRuns
open Requests FreeBlockQueue BlockPool KVCacheInterface SingleTypeManager CacheManager
open CacheHit BlockHashes PoolCache PoolAccounts TableAccounts TableTurns PoolInvariant
open FreeOrder SharedPrefix SlotAllocation CommonPrefix HitHashes List Option

variable {Digest : Type}

/-! The groups of a coordinator. -/

/-- What no call changes. -/
structure SameGroups (coordinator coordinator' : Coordinator Digest) : Prop where
  same : SameCoordinator coordinator coordinator'
  kind : coordinator'.kind = coordinator.kind
  dcpWorldSize : coordinator'.dcpWorldSize = coordinator.dcpWorldSize
  pcpWorldSize : coordinator'.pcpWorldSize = coordinator.pcpWorldSize

theorem SameGroups.trans {first second third : Coordinator Digest}
    (one : SameGroups first second) (two : SameGroups second third) : SameGroups first third := by
  constructor
  · exact one.same.trans two.same
  · exact two.kind.trans one.kind
  · exact two.dcpWorldSize.trans one.dcpWorldSize
  · exact two.pcpWorldSize.trans one.pcpWorldSize

theorem fullGroups_after {coordinator coordinator' : Coordinator Digest}
    (groups : FullGroups coordinator) (same : SameGroups coordinator coordinator') :
    FullGroups coordinator' := by
  have pairs := same.same.managers
  constructor
  · exact kinds_after same.same groups.full
  · intro index manager' atIndex
    obtain ⟨within, rfl⟩ := List.getElem?_eq_some_iff.mp atIndex
    have before : index < coordinator.singleTypeManagers.length := by
      rw [pairs.length_eq]
      exact within
    have keeps := (pairs.get before within).kvCacheGroupId
    rw [get_eq_getElem] at keeps
    rw [keeps]
    exact groups.ids index _ (getElem?_eq_getElem before)
  · intro manager' member
    obtain ⟨manager, inOld, keeps⟩ := forall₂_right pairs manager' member
    rw [keeps.blockSize, keeps.kvCacheSpec, same.dcpWorldSize, same.pcpWorldSize]
    exact groups.sizes manager inOld
  · intro unitary
    rw [← pairs.length_eq]
    exact groups.unitary (same.kind.symm.trans unitary)
  · intro hybrid
    rw [same.dcpWorldSize, same.pcpWorldSize]
    exact groups.hybrid (same.kind.symm.trans hybrid)

section Invariant
variable (hash : Digest × Payload Digest → Digest) (root : Digest) (scaleOf : Nat → Nat)

/-- The groups, and the entries of their tables. -/
structure InLine (coordinator : Coordinator Digest) : Prop where
  groups : FullGroups coordinator
  scales : ∀ manager ∈ coordinator.singleTypeManagers, scaleOf manager.kvCacheGroupId =
    manager.blockSize / coordinator.blockPool.hashBlockSize
  arranged : Arranged hash root scaleOf coordinator.blockPool coordinator.singleTypeManagers
    (fun _ => 0) fun _ _ _ => False

variable {hash root scaleOf}

theorem InLine.after {coordinator coordinator' : Coordinator Digest}
    (inLine : InLine hash root scaleOf coordinator) (same : SameGroups coordinator coordinator')
    (arranged : Arranged hash root scaleOf coordinator'.blockPool coordinator'.singleTypeManagers
      (fun _ => 0) fun _ _ _ => False) : InLine hash root scaleOf coordinator' := by
  constructor
  · exact fullGroups_after inLine.groups same
  · intro manager' member
    obtain ⟨manager, inOld, keeps⟩ := forall₂_right same.same.managers manager' member
    rw [keeps.kvCacheGroupId, keeps.blockSize, same.same.shape.hashBlockSize]
    exact inLine.scales manager inOld
  · exact arranged

/-- A call on every manager in turn. `ready` is what the calls that are left need. -/
theorem forEach_inLine {coordinator : Coordinator Digest}
    {call : Pool Digest → Manager Digest → Option (Pool Digest × Manager Digest)}
    (inLine : InLine hash root scaleOf coordinator)
    (ready : Pool Digest → List (Manager Digest) → Prop)
    (start : ready coordinator.blockPool coordinator.singleTypeManagers)
    (keeps : ∀ manager ∈ coordinator.singleTypeManagers, ∀ later pool rest places pool' manager',
      SameShape coordinator.blockPool pool → ready pool (manager :: later) →
        Lined hash root scaleOf pool manager rest places →
          call pool manager = some (pool', manager') →
            Lined hash root scaleOf pool' manager' rest places ∧ SameShape pool pool' ∧
              SameManager manager manager' ∧ ready pool' later)
    {next : Coordinator Digest} (done : coordinator.forEach call = some next) :
    InLine hash root scaleOf next ∧ SameGroups coordinator next := by
  unfold Coordinator.forEach at done
  rw [map_eq_some_iff] at done
  obtain ⟨⟨results, pool, managers⟩, mapped, rfl⟩ := done
  obtain ⟨arranged, shape, same⟩ := mapManagers_arranged _ coordinator.blockPool
    coordinator.blockPool coordinator.singleTypeManagers coordinator.singleTypeManagers ready
    (by
      intro manager later suffix pool rest places result pool' manager' shape here lined called
      obtain ⟨changed, done, equal⟩ := map_eq_some_iff.mp called
      obtain ⟨-, rfl⟩ := Prod.mk.inj equal
      exact keeps manager (suffix.subset mem_cons_self) later pool rest places pool' manager'
        shape here lined done)
    (fun _ => 0) (fun _ _ _ => False) suffix_rfl (SameShape.refl _) start inLine.arranged
    results pool managers mapped
  have sameGroups : SameGroups coordinator
      { coordinator with blockPool := pool, singleTypeManagers := managers } :=
    ⟨⟨shape, same⟩, rfl, rfl, rfl⟩
  exact ⟨inLine.after sameGroups arranged, sameGroups⟩

/-! The calls on a coordinator. -/

section Calls
variable [DecidableEq Digest]

omit [DecidableEq Digest] in
theorem free_inLine {coordinator : Coordinator Digest} {requestId : ReqId}
    (inLine : InLine hash root scaleOf coordinator) {next : Coordinator Digest}
    (done : coordinator.free requestId = some next) :
    InLine hash root scaleOf next ∧ SameGroups coordinator next := by
  apply forEach_inLine inLine (fun _ _ => True) trivial _ done
  intro manager _ later pool rest places pool' manager' _ _ lined called
  obtain ⟨linedNow, shape, same⟩ := free_lined lined called
  exact ⟨linedNow, shape, same, trivial⟩

omit [DecidableEq Digest] in
/-- Full attention skips nothing. -/
theorem removeSkippedBlocks_full {coordinator : Coordinator Digest} {requestId : ReqId}
    {totalComputedTokens : Int} (groups : FullGroups coordinator) :
    coordinator.removeSkippedBlocks requestId totalComputedTokens = some coordinator := by
  have unchanged : ∀ managers : List (Manager Digest),
      (∀ manager ∈ managers, Full manager.kvCacheSpec) →
        ∃ results, mapManagers (fun pool manager =>
          (manager.removeSkippedBlocks pool requestId totalComputedTokens).map
            fun changed => ((), changed)) coordinator.blockPool managers =
          some (results, coordinator.blockPool, managers) := by
    intro managers full
    induction managers with
    | nil => exact ⟨[], rfl⟩
    | cons manager later ih =>
      obtain ⟨results, rest⟩ := ih fun other member => full other (mem_cons_of_mem _ member)
      refine ⟨() :: results, ?_⟩
      simp only [mapManagers, removeSkippedBlocks_none
        (full manager mem_cons_self), map_some, rest]
  obtain ⟨results, mapped⟩ := unchanged coordinator.singleTypeManagers
    fun manager member => (groups.full manager member).1
  unfold Coordinator.removeSkippedBlocks Coordinator.forEach
  rw [mapped]
  rfl

theorem cacheBlocks_inLine {coordinator : Coordinator Digest} {request : Request Digest}
    (chained : Chained hash root request) {numComputedTokens : Int}
    (caching : coordinator.singleTypeManagers = [] ∨ coordinator.blockPool.enableCaching = true)
    (inLine : InLine hash root scaleOf coordinator) {next : Coordinator Digest}
    (done : coordinator.cacheBlocks request numComputedTokens = some next) :
    InLine hash root scaleOf next ∧ SameGroups coordinator next := by
  apply forEach_inLine inLine (fun _ _ => True) trivial _ done
  intro manager member later pool rest places pool' manager' shape _ lined called
  have caches : pool.enableCaching = true := by
    rw [shape.enableCaching]
    exact caching.resolve_left (ne_nil_of_mem member)
  obtain ⟨linedNow, shapeNow, same⟩ := cacheBlocks_lined
    (inLine.groups.full manager member).1 lined chained
    (by rw [shape.hashBlockSize]; exact inLine.scales manager member) caches called
  exact ⟨linedNow, shapeNow, same, trivial⟩

theorem allocateNewBlocks_inLine {coordinator : Coordinator Digest} {requestId : ReqId}
    {numTokens numTokensMainModel : Int} (numEncoderTokens : Nat)
    (inLine : InLine hash root scaleOf coordinator) {newBlocks : KVCacheBlocks}
    {next : Coordinator Digest}
    (done : coordinator.allocateNewBlocks requestId numTokens numTokensMainModel numEncoderTokens =
      some (newBlocks, next)) :
    InLine hash root scaleOf next ∧ SameGroups coordinator next := by
  unfold Coordinator.allocateNewBlocks at done
  rw [map_eq_some_iff] at done
  obtain ⟨⟨results, pool, managers⟩, mapped, same⟩ := done
  obtain ⟨-, rfl⟩ := Prod.mk.inj same
  obtain ⟨arranged, shape, same⟩ := mapManagers_arranged _ coordinator.blockPool
    coordinator.blockPool coordinator.singleTypeManagers coordinator.singleTypeManagers
    (fun _ _ => True)
    (by
      intro manager later suffix pool rest places result pool' manager' _ _ lined called
      obtain ⟨linedNow, shape, same⟩ := allocateNewBlocks_lined (inLine.groups.full manager (suffix.subset mem_cons_self)).1 lined called
      exact ⟨linedNow, shape, same, trivial⟩)
    (fun _ => 0) (fun _ _ _ => False) suffix_rfl (SameShape.refl _) trivial inLine.arranged
    results pool managers mapped
  have sameGroups : SameGroups coordinator
      { coordinator with blockPool := pool, singleTypeManagers := managers } :=
    ⟨⟨shape, same⟩, rfl, rfl, rfl⟩
  exact ⟨inLine.after sameGroups arranged, sameGroups⟩

theorem allocateNewComputedBlocks_inLine (collisionFree : Function.Injective hash)
    (fresh : ∀ input, hash input ≠ root) {coordinator : Coordinator Digest} {requestId : ReqId}
    {newComputedBlocks : Option KVCacheBlocks}
    {numLocalComputedTokens numExternalComputedTokens : Int}
    (fits : HitsFit coordinator newComputedBlocks numLocalComputedTokens numExternalComputedTokens)
    (scaled : ∀ manager ∈ coordinator.singleTypeManagers,
      hitsOf newComputedBlocks manager ≠ [] → 0 < scaleOf manager.kvCacheGroupId)
    (waiting : Waiting hash root scaleOf requestId newComputedBlocks numLocalComputedTokens
      numExternalComputedTokens coordinator.blockPool coordinator.singleTypeManagers)
    (inLine : InLine hash root scaleOf coordinator) {next : Coordinator Digest}
    (done : coordinator.allocateNewComputedBlocks requestId newComputedBlocks
      numLocalComputedTokens numExternalComputedTokens = some next) :
    InLine hash root scaleOf next ∧ SameGroups coordinator next := by
  apply forEach_inLine inLine _ waiting _ done
  intro manager member later pool rest places pool' manager' _ here lined called
  obtain ⟨full, positive⟩ := inLine.groups.full manager member
  apply addGroup_lined collisionFree fresh full positive (scaled manager member) _ here lined called
  intro external
  cases given : blocksAt newComputedBlocks manager.kvCacheGroupId with
  | none => simp [given] at called
  | some blocks =>
    rw [hitsOf, given]
    exact (fits manager member blocks given).computed external

omit [DecidableEq Digest] in
/-- The pool loses hashes, or the managers forget what is not a table. -/
theorem quiet_inLine {coordinator next : Coordinator Digest}
    (inLine : InLine hash root scaleOf coordinator) (hashed : Hashed next.blockPool)
    (counts : SameCounts coordinator.blockPool next.blockPool)
    (lost : Lost coordinator.blockPool next.blockPool)
    (managers : List.Forall₂ (fun manager manager' : Manager Digest =>
      SameManager manager manager' ∧ Kept manager manager') coordinator.singleTypeManagers
      next.singleTypeManagers)
    (kind : next.kind = coordinator.kind) (dcp : next.dcpWorldSize = coordinator.dcpWorldSize)
    (pcp : next.pcpWorldSize = coordinator.pcpWorldSize) :
    InLine hash root scaleOf next ∧ SameGroups coordinator next := by
  have sameGroups : SameGroups coordinator next :=
    ⟨⟨counts.shape, managers.imp fun _ _ pair => pair.1⟩, kind, dcp, pcp⟩
  have arranged := inLine.arranged.quiet hashed counts lost (managers.imp fun _ _ pair => pair.2)
  exact ⟨inLine.after sameGroups arranged, sameGroups⟩

/-! One call of the manager. -/

/-- The hits are blocks that `get_computed_blocks` found for the request in this state. -/
def FoundHits (manager : KVCacheManager Digest) (request : Request Digest)
    (hits : Option KVCacheBlocks) : Prop :=
  hits = none ∨ ∃ numNewComputedTokens,
    manager.getComputedBlocks request = some (hits, numNewComputedTokens)

/-- No blocks drawn for one group are the hits of another. -/
def GroupsApart (manager : KVCacheManager Digest) (request : Request Digest)
    (args : KVCacheManager.AllocateArgs) : Prop :=
  DrawsApart (freeList manager.coordinator.blockPool)
    (manager.coordinator.singleTypeManagers.map (asksOf request.requestId args.newComputedBlocks
      (localTokens request args) args.numExternalComputedTokens))

instance (manager : KVCacheManager Digest) (request : Request Digest)
    (args : KVCacheManager.AllocateArgs) : Decidable (GroupsApart manager request args) :=
  inferInstanceAs (Decidable (DrawsApart _ _))

omit [DecidableEq Digest] in
theorem foundHits_spelled {manager : KVCacheManager Digest} {request : Request Digest}
    (chained : Chained hash root request) {hits : Option KVCacheBlocks}
    (found : FoundHits manager request hits) (inLine : InLine hash root scaleOf manager.coordinator)
    (single : Manager Digest) (member : single ∈ manager.coordinator.singleTypeManagers) :
    Hits hash root scaleOf manager.coordinator.blockPool single.kvCacheGroupId
        (hitsOf hits single) ∧
      (hitsOf hits single ≠ [] → 0 < scaleOf single.kvCacheGroupId) := by
  have hashedAt : HashedAt manager.coordinator.blockPool
      (hashesWithBlockSize request.blockHashes manager.coordinator.blockPool.hashBlockSize
        single.blockSize) single.kvCacheGroupId (hitsOf hits single) := by
    cases found with
    | inl none =>
      rw [none]
      exact hashedAt_nil _
    | inr searched =>
      obtain ⟨numNewComputedTokens, searched⟩ := searched
      exact getComputedBlocks_hashedAt inLine.groups inLine.arranged.balanced.hashed searched member
  have scale := inLine.scales single member
  constructor
  · intro index block entry
    obtain ⟨blockHash, atIndex, hashed⟩ := hashedAt index block entry
    obtain ⟨-, depth⟩ := hashes_atDepth chained atIndex
    refine ⟨_, hashed, rfl, ?_⟩
    rwa [scale]
  · intro some
    obtain ⟨block, rest, listed⟩ := exists_cons_of_ne_nil some
    obtain ⟨blockHash, atIndex, -⟩ := hashedAt 0 block (by rw [listed]; rfl)
    rw [scale]
    exact (hashes_atDepth chained atIndex).1

/-- A manager of full-attention groups that caches only in a pool that caches. -/
structure Ordered (hash : Digest × Payload Digest → Digest) (root : Digest)
    (scaleOf : Nat → Nat) (manager : KVCacheManager Digest) : Prop where
  inLine : InLine hash root scaleOf manager.coordinator
  caching : manager.enableCaching = true →
    manager.coordinator.singleTypeManagers = [] ∨
      manager.coordinator.blockPool.enableCaching = true

omit [DecidableEq Digest] in
theorem Ordered.next {manager : KVCacheManager Digest}
    (ordered : Ordered hash root scaleOf manager) (coordinator : Coordinator Digest)
    (result : InLine hash root scaleOf coordinator ∧ SameGroups manager.coordinator coordinator) :
    Ordered hash root scaleOf { manager with coordinator := coordinator } := by
  obtain ⟨inLine, same⟩ := result
  constructor
  · exact inLine
  · intro on
    rcases ordered.caching on with none | caches
    · have pairs := same.same.managers
      rw [none] at pairs
      exact Or.inl (forall₂_nil_left_iff.mp pairs)
    · exact Or.inr (same.same.shape.enableCaching.trans caches)

theorem allocateSlots_ordered (collisionFree : Function.Injective hash)
    (fresh : ∀ input, hash input ≠ root) {manager : KVCacheManager Digest}
    (ordered : Ordered hash root scaleOf manager) {request : Request Digest}
    {args : KVCacheManager.AllocateArgs} (chained : Chained hash root request)
    (fits : HitsFit manager.coordinator args.newComputedBlocks (localTokens request args)
      args.numExternalComputedTokens)
    (found : FoundHits manager request args.newComputedBlocks)
    (apart : GroupsApart manager request args) {slots : Option KVCacheBlocks}
    {next : KVCacheManager Digest} (done : manager.allocateSlots request args = some (slots, next)) :
    Ordered hash root scaleOf next := by
  have spelled := foundHits_spelled chained found ordered.inLine
  unfold KVCacheManager.allocateSlots at done
  simp only at done
  split at done
  · contradiction
  · rw [removeSkippedBlocks_full ordered.inLine.groups]
      at done
    simp only at done
    split at done
    · contradiction
    · split at done
      · obtain ⟨-, rfl⟩ := Prod.mk.inj (some.inj done)
        exact ordered
      · split at done
        · contradiction
        · rename_i computed added
          have first : InLine hash root scaleOf computed ∧
              SameGroups manager.coordinator computed := by
            split at added
            · obtain ⟨free, queued⟩ := counted_queued manager.coordinator.blockPool _ _
                ordered.inLine.arranged.balanced.counted
              apply allocateNewComputedBlocks_inLine collisionFree fresh fits
                (fun single member => (spelled single member).2) _ ordered.inLine added
              refine ⟨fun single member => (spelled single member).1, free, queued, ?_⟩
              rw [GroupsApart, freeList_eq _ free queued] at apart
              exact apart
            · obtain rfl := some.inj added
              exact ⟨ordered.inLine, ⟨sameCoordinator_refl _, rfl, rfl, rfl⟩⟩
          split at done
          · contradiction
          · rename_i newBlocks allocated result
            obtain ⟨inLineNow, same⟩ := allocateNewBlocks_inLine _
              first.1 result
            have upTo := first.2.trans same
            have orderedNow := ordered.next allocated ⟨inLineNow, upTo⟩
            split at done
            · obtain ⟨-, rfl⟩ := Prod.mk.inj (some.inj done)
              exact orderedNow
            · rename_i caching
              obtain ⟨cached, caches, equal⟩ := map_eq_some_iff.mp done
              obtain ⟨-, rfl⟩ := Prod.mk.inj equal
              rw [not_or] at caching
              obtain ⟨last, sameLast⟩ := cacheBlocks_inLine chained
                (orderedNow.caching (by simpa using caching.1)) inLineNow caches
              exact ordered.next cached ⟨last, upTo.trans sameLast⟩

/-! The start. -/

omit [DecidableEq Digest] in
/-- A manager of a full-attention group takes nothing from the pool. -/
theorem managerInit_full (pool pool' : Pool Digest) (spec : KVCacheSpec) (full : Full spec)
    (enableCaching : Bool) (groupId dcpWorldSize pcpWorldSize : Nat) (manager : Manager Digest)
    (made : Manager.init pool spec enableCaching groupId dcpWorldSize pcpWorldSize =
      some (pool', manager)) :
    pool' = pool ∧ manager.kvCacheSpec = spec ∧ manager.kvCacheGroupId = groupId ∧
      manager.blockSize = spec.blockSize * (dcpWorldSize * pcpWorldSize) := by
  cases spec with
  | fullAttention | mlaAttention =>
    obtain ⟨rfl, rfl⟩ := Prod.mk.inj (some.inj made)
    exact ⟨rfl, rfl, rfl, rfl⟩
  | slidingWindow | chunkedLocalAttention | mamba | sinkFullAttention | crossAttention =>
    exact full.elim

omit [DecidableEq Digest] in
theorem initManagers_full (enableCaching : Bool) (dcpWorldSize pcpWorldSize : Nat)
    (specs : List KVCacheSpec) (full : ∀ spec ∈ specs, Full spec) (groupId : Nat)
    (pool pool' : Pool Digest) (managers : List (Manager Digest))
    (made : Coordinator.initManagers enableCaching dcpWorldSize pcpWorldSize specs groupId pool =
      some (pool', managers)) :
    pool' = pool ∧ managers.length = specs.length ∧
      ∀ (index : Nat) (manager : Manager Digest), managers[index]? = some manager →
        manager.kvCacheGroupId = groupId + index ∧ Full manager.kvCacheSpec ∧
          manager.blockSize = manager.kvCacheSpec.blockSize * (dcpWorldSize * pcpWorldSize) := by
  induction specs generalizing groupId pool managers with
  | nil =>
    obtain ⟨rfl, rfl⟩ : pool = pool' ∧ [] = managers := by
      simpa [Coordinator.initManagers] using made
    exact ⟨rfl, rfl, by simp⟩
  | cons spec rest ih =>
    simp only [Coordinator.initManagers] at made
    split at made
    · contradiction
    · rename_i middle manager single
      simp only [map_eq_some_iff, Prod.exists, Prod.mk.injEq] at made
      obtain ⟨final, others, tail, rfl, rfl⟩ := made
      obtain ⟨rfl, kind, id, size⟩ := managerInit_full pool middle spec
        (full spec mem_cons_self) enableCaching groupId dcpWorldSize pcpWorldSize manager
        single
      obtain ⟨rfl, length, later⟩ := ih (fun other member =>
        full other (mem_cons_of_mem _ member)) (groupId + 1) middle others tail
      refine ⟨rfl, by rw [length_cons, length_cons, length], ?_⟩
      intro index other atIndex
      cases index with
      | zero =>
        obtain rfl := some.inj atIndex
        rw [kind, id, size]
        exact ⟨rfl, full spec mem_cons_self, rfl⟩
      | succ index =>
        obtain ⟨idLater, fullLater, sizeLater⟩ := later index other atIndex
        exact ⟨by rw [idLater]; omega, fullLater, sizeLater⟩

omit [DecidableEq Digest] in
theorem init_ordered {config : KVCacheConfig} {maxModelLen hashBlockSize : Nat}
    {enableCaching useEagle enableKvCacheEvents : Bool} {dcpWorldSize pcpWorldSize : Nat}
    (parallel : 0 < dcpWorldSize * pcpWorldSize)
    (full : ∀ spec ∈ config.kvCacheGroups, Full spec ∧ 0 < spec.blockSize)
    (manager : KVCacheManager Digest)
    (made : KVCacheManager.init config maxModelLen hashBlockSize enableCaching useEagle
      enableKvCacheEvents dcpWorldSize pcpWorldSize = some manager) :
    ∃ scaleOf, Ordered hash root scaleOf manager := by
  obtain ⟨balanced, kinds⟩ := init_balanced Full config maxModelLen hashBlockSize enableCaching
    useEagle enableKvCacheEvents dcpWorldSize pcpWorldSize parallel full
    (by
      rintro _ member sink rfl
      exact (full _ member).1)
    manager made
  unfold KVCacheManager.init at made
  rw [map_eq_some_iff] at made
  obtain ⟨coordinator, made, rfl⟩ := made
  unfold Coordinator.init at made
  simp only at made
  split at made
  · contradiction
  · rename_i supported
    split at made
    · contradiction
    · rename_i pool start
      rw [map_eq_some_iff] at made
      obtain ⟨⟨final, managers⟩, initialized, rfl⟩ := made
      obtain ⟨rfl, length, each⟩ := initManagers_full _ dcpWorldSize pcpWorldSize _
        (fun spec member => (full spec member).1) 0 pool final managers initialized
      obtain ⟨unused, -⟩ := PrefixReset.initManagers_takes _ _ _ _ _ final final managers
        initialized
      obtain ⟨-, -, -, caching, -⟩ := init_counted _ _ _ _ final start
      obtain ⟨⟨nullBlock, queue⟩, -, bare⟩ := map_eq_some_iff.mp start
      let scaleOf (group : Nat) : Nat :=
        (managers[group]?.elim 0 fun single => single.blockSize) / final.hashBlockSize
      refine ⟨scaleOf, ⟨⟨kinds, ?_, ?_, ?_, ?_⟩, ?_, ?_⟩, ?_⟩
      · intro index single atIndex
        rw [(each index single atIndex).1, Nat.zero_add]
      · intro single member
        obtain ⟨index, atIndex⟩ := getElem?_of_mem member
        exact (each index single atIndex).2.2
      · intro unitary
        change managers.length = 1
        simp only [Coordinator.kindOf] at unitary
        split at unitary
        · contradiction
        · split at unitary
          · omega
          · contradiction
      · intro hybrid
        simp only at hybrid
        simp only [hybrid, Coordinator.supports, Bool.not_eq_false, Bool.and_eq_true,
          decide_eq_true_eq] at supported
        exact ⟨supported.1.1.2, supported.1.2⟩
      · intro single member
        obtain ⟨index, atIndex⟩ := getElem?_of_mem member
        rw [(each index single atIndex).1, Nat.zero_add]
        simp only [scaleOf]
        rw [atIndex]
        rfl
      · -- No table has an entry yet.
        have unplaced (block : BlockId) (group index : Nat) :
            ¬ (PlacedIn managers block group index ∨ False) := by
          rintro (⟨single, member, -, requestId, entry⟩ | none)
          · rw [Manager.blocksOf, unused single member] at entry
            cases entry
          · exact none
        constructor
        · exact balanced
        · constructor
          · intro block group index group' index' here
            exact absurd here (unplaced block group index)
          · intro block group index here
            exact absurd here (unplaced block group index)
          · intro block group index key here
            exact absurd here (unplaced block group index)
          · intro _ block
            rw [← bare]
        · intro block group index none
          exact none.elim
      · intro on
        by_cases none : config.kvCacheGroups = []
        · rw [none] at length
          exact Or.inl (eq_nil_of_length_eq_zero length)
        · refine Or.inr ?_
          have on : enableCaching = true := on
          rw [caching, decide_eq_true_iff, Coordinator.kindOf, if_neg (by simp [on, none])]
          split
          · exact CoordinatorKind.noConfusion
          · exact CoordinatorKind.noConfusion

end Calls
end Invariant
end VllmDcu.CommonRuns

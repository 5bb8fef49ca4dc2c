import VllmDcu.SharedPrefix
import VllmDcu.SlotAllocation
import VllmDcu.HybridRounds
import VllmDcu.PrefixReset

/-! The number of common prefix blocks. A block is taken for common when its reference
count is the number of requests with a table. That is right as long as the count has one
entry for each of these tables, at one index of one group; it goes wrong when the blocks
drawn for one group are the cached blocks that another group is about to share. -/
namespace VllmDcu.CommonPrefix
open Requests FreeBlockQueue BlockPool KVCacheInterface MathUtils SingleTypeManager CacheManager
open CacheHit HashChain BlockHashes PoolCache PoolAccounts TableAccounts TableTurns PoolInvariant
open FreeOrder SharedPrefix SlotAllocation List

variable {Digest : Type}

/-- The specs whose manager class is `FullAttentionManager`. -/
def Full : KVCacheSpec → Prop
  | .fullAttention _ | .mlaAttention _ => True
  | _ => False

variable (manager : Manager Digest)

theorem full_skips (full : Full manager.kvCacheSpec) (numComputedTokens : Int) :
    manager.getNumSkippedTokens numComputedTokens = 0 := by
  unfold Manager.getNumSkippedTokens
  cases kind : manager.kvCacheSpec with
  | fullAttention | mlaAttention | sinkFullAttention | crossAttention => rfl
  | slidingWindow | chunkedLocalAttention | mamba =>
    rw [kind] at full
    exact full.elim

/-! Several managers. -/

section Managers
variable (hash : Digest × Payload Digest → Digest) (root : Digest) (scaleOf : Nat → Nat)

/-- The entries of all tables of a list of managers. -/
def PlacedIn (managers : List (Manager Digest)) (block : BlockId) (group index : Nat) : Prop :=
  ∃ manager ∈ managers, Placed manager block group index

/-- The managers of a list, beside others whose entries are `places` and counted by `rest`. -/
structure Arranged (pool : Pool Digest) (managers : List (Manager Digest)) (rest : BlockId → Nat)
    (places : BlockId → Nat → Nat → Prop) : Prop where
  balanced : Balanced pool managers rest
  aligned : Aligned hash root scaleOf pool fun block group index =>
    PlacedIn managers block group index ∨ places block group index
  backed : ∀ block group index, places block group index → 0 < rest block

variable {hash root scaleOf}

theorem placedIn_counted (managers : List (Manager Digest)) (block : BlockId) (group index : Nat)
    (here : PlacedIn managers block group index) : 0 < references managers block := by
  obtain ⟨manager, member, -, requestId, entry⟩ := here
  by_contra none
  have absent := (PrefixReset.references_eq_zero_iff managers block).mp (by omega)
  exact absent manager member requestId (mem_of_getElem? entry)

theorem arranged_cons (pool : Pool Digest) (manager : Manager Digest)
    (managers : List (Manager Digest)) (rest : BlockId → Nat)
    (places : BlockId → Nat → Nat → Prop) :
    Arranged hash root scaleOf pool (manager :: managers) rest places ↔
      Lined hash root scaleOf pool manager (fun block => references managers block + rest block)
          (fun block group index => PlacedIn managers block group index ∨
            places block group index) ∧
        (∀ other ∈ managers, ∀ requestId, Single pool.nullBlock (other.blocksOf requestId)) ∧
        ∀ block group index, places block group index → 0 < rest block := by
  have split (block : BlockId) (group index : Nat) :
      (PlacedIn (manager :: managers) block group index ∨ places block group index) ↔
        (Placed manager block group index ∨
          (PlacedIn managers block group index ∨ places block group index)) := by
    simp only [PlacedIn, mem_cons, exists_eq_or_imp, or_assoc]
  constructor
  · intro arranged
    obtain ⟨sound, singles⟩ := (balanced_cons pool manager managers rest).mp arranged.balanced
    refine ⟨⟨sound, ?_, ?_⟩, singles, arranged.backed⟩
    · exact arranged.aligned.mono fun block group index here => (split block group index).mpr here
    · rintro block group index (here | other)
      · have := placedIn_counted managers block group index here
        omega
      · have := arranged.backed block group index other
        omega
  · rintro ⟨lined, singles, backed⟩
    constructor
    · exact (balanced_cons pool manager managers rest).mpr ⟨lined.sound, singles⟩
    · exact lined.aligned.mono fun block group index here => (split block group index).mp here
    · exact backed

/-- A call that keeps one manager in line keeps all. `ready` is what the calls that are left
need. -/
theorem mapManagers_arranged {Result : Type}
    (call : Pool Digest → Manager Digest → Option (Result × Pool Digest × Manager Digest))
    (base pool : Pool Digest) (all managers : List (Manager Digest))
    (ready : Pool Digest → List (Manager Digest) → Prop)
    (keeps : ∀ manager later, (manager :: later) <:+ all →
      ∀ pool rest places result pool' manager', SameShape base pool →
        ready pool (manager :: later) → Lined hash root scaleOf pool manager rest places →
          call pool manager = some (result, pool', manager') →
            Lined hash root scaleOf pool' manager' rest places ∧ SameShape pool pool' ∧
              SameManager manager manager' ∧ ready pool' later)
    (rest : BlockId → Nat) (places : BlockId → Nat → Nat → Prop) (suffix : managers <:+ all)
    (shape : SameShape base pool) (here : ready pool managers)
    (arranged : Arranged hash root scaleOf pool managers rest places) (results : List Result)
    (pool' : Pool Digest) (managers' : List (Manager Digest))
    (mapped : mapManagers call pool managers = some (results, pool', managers')) :
    Arranged hash root scaleOf pool' managers' rest places ∧ SameShape pool pool' ∧
      List.Forall₂ SameManager managers managers' := by
  induction managers generalizing pool rest places results managers' with
  | nil =>
    simp only [mapManagers, Option.some.injEq, Prod.mk.injEq] at mapped
    obtain ⟨-, rfl, rfl⟩ := mapped
    exact ⟨arranged, SameShape.refl pool, Forall₂.nil⟩
  | cons manager later ih =>
    simp only [mapManagers] at mapped
    cases called : call pool manager with
    | none => simp [called] at mapped
    | some outcome =>
      obtain ⟨result, middle, manager₁⟩ := outcome
      simp only [called, Option.map_eq_some_iff, Prod.exists, Prod.mk.injEq] at mapped
      obtain ⟨results', final, others, tail, -, rfl, rfl⟩ := mapped
      obtain ⟨lined, singles, backed⟩ := (arranged_cons pool manager later rest places).mp arranged
      obtain ⟨linedNow, shapeNow, same, readyNow⟩ := keeps manager later suffix pool _ _ result
        middle manager₁ shape here lined called
      -- For the managers that follow, this one is one of the others.
      have arrangedTail : Arranged hash root scaleOf middle later
          (fun block => occurrences manager₁ block + rest block)
          (fun block group index => Placed manager₁ block group index ∨
            places block group index) := by
        constructor
        · constructor
          · exact linedNow.sound.hashed
          · apply counted_congr middle _ _ _ _ linedNow.sound.counted
            · omega
            · simp
          · intro other member requestId
            rw [shapeNow.nullBlock]
            exact singles other member requestId
        · apply linedNow.aligned.mono
          tauto
        · rintro block group index (place | other)
          · have positive := placedIn_counted [manager₁] block group index
              ⟨manager₁, mem_singleton_self _, place⟩
            simp only [references, map_cons, map_nil, sum_cons, sum_nil]
              at positive
            omega
          · have := backed block group index other
            omega
      obtain ⟨arrangedNow, shapeTail, sameTail⟩ := ih middle _ _
        ((suffix_cons manager later).trans suffix) (shape.trans shapeNow) readyNow
        arrangedTail results' others tail
      refine ⟨?_, shapeNow.trans shapeTail, Forall₂.cons same sameTail⟩
      rw [arranged_cons]
      refine ⟨⟨?_, ?_, ?_⟩, arrangedNow.balanced.single, backed⟩
      · constructor
        · exact arrangedNow.balanced.hashed
        · apply counted_congr final _ _ _ _ arrangedNow.balanced.counted
          · omega
          · simp
        · intro requestId
          rw [shapeTail.nullBlock]
          exact linedNow.sound.single requestId
      · apply arrangedNow.aligned.mono
        tauto
      · rintro block group index (place | other)
        · have := placedIn_counted others block group index place
          omega
        · have := backed block group index other
          omega

/-- The same tables under the same group. -/
structure Kept (manager manager' : Manager Digest) : Prop where
  group : manager'.kvCacheGroupId = manager.kvCacheGroupId
  tables : ∀ requestId, manager'.blocksOf requestId = manager.blocksOf requestId
  total : ∀ block, occurrences manager' block = occurrences manager block

theorem Kept.refl : Kept manager manager := ⟨rfl, fun _ => rfl, fun _ => rfl⟩

theorem setBlocks_kept (requestId : ReqId) :
    Kept manager (manager.setBlocks requestId (manager.blocksOf requestId)) := by
  constructor
  · rfl
  · intro other
    rw [blocksOf_set]
    split
    · rename_i same
      rw [same]
    · rfl
  · intro block
    have set := occurrences_set manager requestId (manager.blocksOf requestId) block
    omega

theorem placedIn_kept {managers managers' : List (Manager Digest)}
    (kept : List.Forall₂ Kept managers managers') {block : BlockId} {group index : Nat}
    (here : PlacedIn managers' block group index) : PlacedIn managers block group index := by
  obtain ⟨manager', member, same, requestId, entry⟩ := here
  obtain ⟨manager, member', keeps⟩ := forall₂_source kept manager' member
  exact ⟨manager, member', keeps.group.symm.trans same, requestId, by rwa [← keeps.tables]⟩

theorem references_kept {managers managers' : List (Manager Digest)}
    (kept : List.Forall₂ Kept managers managers') (block : BlockId) :
    references managers' block = references managers block := by
  induction kept with
  | nil => rfl
  | cons keeps _ ih =>
    simp only [references, map_cons, sum_cons] at ih ⊢
    rw [keeps.total block, ih]

/-- Nothing happens to the tables, and hashes are only lost. -/
theorem Arranged.quiet {pool pool' : Pool Digest} {managers managers' : List (Manager Digest)}
    {rest : BlockId → Nat} {places : BlockId → Nat → Nat → Prop}
    (arranged : Arranged hash root scaleOf pool managers rest places)
    (hashed : Hashed pool') (counts : SameCounts pool pool') (lost : Lost pool pool')
    (kept : List.Forall₂ Kept managers managers') :
    Arranged hash root scaleOf pool' managers' rest places := by
  constructor
  · constructor
    · exact hashed
    · apply counted_congr pool' _ _ _ _ (sameCounts_counted counts arranged.balanced.counted)
      · intro block _
        rw [references_kept kept]
      · simp
    · intro manager' member requestId
      obtain ⟨manager, member', keeps⟩ := forall₂_source kept manager' member
      rw [keeps.tables, counts.shape.nullBlock]
      exact arranged.balanced.single manager member' requestId
  · apply (arranged.aligned.lost counts.shape lost).mono
    rintro block group index (here | other)
    · exact Or.inl (placedIn_kept kept here)
    · exact Or.inr other
  · exact arranged.backed

end Managers

/-! The calls on one manager. -/

section Calls
variable [DecidableEq Digest] {hash : Digest × Payload Digest → Digest} {root : Digest}
  {scaleOf : Nat → Nat}

omit [DecidableEq Digest] in
theorem full_managed (spec : KVCacheSpec) (full : Full spec) : Managed spec := by
  cases spec with
  | fullAttention | mlaAttention => trivial
  | slidingWindow | chunkedLocalAttention | mamba | sinkFullAttention | crossAttention =>
    exact full.elim

omit [DecidableEq Digest] in
theorem full_keeps {manager : Manager Digest} (full : Full manager.kvCacheSpec)
    {blocks : List BlockId} {total : Int} :
    skippedBlocks manager total = 0 ∧ keptHits manager blocks total = blocks ∧
      computedEntries manager blocks total = blocks.length := by
  have skipped : skippedBlocks manager total = 0 := by
    rw [skippedBlocks, full_skips manager full, Int.zero_ediv]
  refine ⟨skipped, ?_, ?_⟩
  · rw [keptHits, skipped, Int.toNat_zero, drop_zero]
  · rw [computedEntries]
    omega

/-- The blocks that a new request draws for its external computed tokens. -/
def drawOf (manager : Manager Digest) (blocks : List BlockId)
    (numLocalComputedTokens numExternalComputedTokens : Int) : Nat :=
  if numExternalComputedTokens ≤ 0 then 0
  else (cdiv (numLocalComputedTokens + numExternalComputedTokens) manager.blockSize -
    blocks.length).toNat

/-- The hits become the table, and the blocks after them are the first that are left free. -/
theorem addComputedBlocks_lined (collisionFree : Function.Injective hash)
    (fresh : ∀ input, hash input ≠ root) {manager manager' : Manager Digest}
    {pool pool' : Pool Digest} {rest : BlockId → Nat} {places : BlockId → Nat → Nat → Prop}
    (full : Full manager.kvCacheSpec) (positive : 0 < manager.blockSize)
    (lined : Lined hash root scaleOf pool manager rest places) {requestId : ReqId}
    (empty : manager.blocksOf requestId = []) {blocks : List BlockId}
    {numLocalComputedTokens numExternalComputedTokens : Int}
    (hits : Hits hash root scaleOf pool manager.kvCacheGroupId blocks)
    (scaled : blocks ≠ [] → 0 < scaleOf manager.kvCacheGroupId)
    (fits : 0 < numExternalComputedTokens →
      (blocks.length : Int) * manager.blockSize ≤ numLocalComputedTokens)
    {free : List BlockId} (queued : Queued pool free)
    (added : manager.addComputedBlocks pool requestId blocks numLocalComputedTokens
      numExternalComputedTokens = some (pool', manager')) :
    Lined hash root scaleOf pool' manager' rest places ∧ SameShape pool pool' ∧
      SameManager manager manager' ∧
      Queued pool' ((free.filter fun block => decide (block ∉ blocks)).drop
        (drawOf manager blocks numLocalComputedTokens numExternalComputedTokens)) ∧
      ∀ block, block ∉ (free.filter fun block => decide (block ∉ blocks)).take
          (drawOf manager blocks numLocalComputedTokens numExternalComputedTokens) →
        (pool'.blocks block).blockHash = (pool.blocks block).blockHash := by
  have caching : manager.enableCaching = true ∨ blocks = [] := by
    by_contra neither
    rw [not_or] at neither
    simp [Manager.addComputedBlocks, full_skips manager full, neither.1, neither.2] at added
  rw [addComputedBlocks_eq manager caching] at added
  obtain ⟨none, all, entries⟩ := full_keeps full
  rw [none, all, Option.bind_eq_some_iff] at added
  obtain ⟨touched, touching, added⟩ := added
  obtain ⟨shared, same⟩ := lined.share collisionFree fresh requestId empty blocks scaled hits touching
  obtain ⟨waiting, -⟩ := touch_queued pool touched blocks free queued touching
  have drawn : externalDraw manager blocks numLocalComputedTokens numExternalComputedTokens =
      if 0 < numExternalComputedTokens then
        some (cdiv (numLocalComputedTokens + numExternalComputedTokens) manager.blockSize -
          blocks.length)
      else Option.none := by
    rw [externalDraw, externalRest, none, if_neg (Int.lt_irrefl 0), entries]
  let recorded : Manager Digest :=
    { manager.setBlocks requestId blocks with
      numCachedBlock := manager.numCachedBlock.set requestId blocks.length }
  have linedNow : Lined hash root scaleOf touched recorded rest places := shared.frame rfl rfl
  by_cases external : 0 < numExternalComputedTokens
  · have count := externalDraw_nonneg manager (full_managed _ full) positive blocks
      numLocalComputedTokens numExternalComputedTokens fits _ (drawn.trans (if_pos external))
    rw [drawn, if_pos external] at added
    obtain ⟨⟨ids, final⟩, got, equal⟩ := Option.map_eq_some_iff.mp added
    obtain ⟨rfl, rfl⟩ := equal
    have amount : drawOf manager blocks numLocalComputedTokens numExternalComputedTokens =
        (cdiv (numLocalComputedTokens + numExternalComputedTokens) manager.blockSize -
          blocks.length).toNat := if_neg (by omega)
    obtain ⟨taken, waitingNow, -, -, others⟩ := getNewBlocks_queued count.1 waiting got
    rw [amount]
    rw [← Int.toNat_of_nonneg count.1] at got
    obtain ⟨appended, shape⟩ := linedNow.append requestId _ ids got
    have table : recorded.blocksOf requestId = blocks := by
      change (manager.setBlocks requestId blocks).blocksOf requestId = blocks
      rw [blocksOf_set, if_pos rfl]
    rw [table] at appended
    obtain ⟨tables, -, noted⟩ := noteNewBlocks_frame
      (recorded.setBlocks requestId (blocks ++ ids)) ids
    refine ⟨appended.frame noted.kvCacheGroupId tables, same.shape.trans shape, ?_, waitingNow, ?_⟩
    · have first : SameManager manager (recorded.setBlocks requestId (blocks ++ ids)) :=
        ⟨rfl, rfl, rfl, rfl⟩
      exact first.trans noted
    · intro block absent
      rw [← taken] at absent
      rw [others block absent, same.hashes]
  · rw [drawn, if_neg external] at added
    obtain ⟨rfl, rfl⟩ := Prod.mk.inj (Option.some.inj added)
    have amount : drawOf manager blocks numLocalComputedTokens numExternalComputedTokens = 0 :=
      if_pos (by omega)
    rw [amount]
    refine ⟨linedNow, same.shape, ⟨rfl, rfl, rfl, rfl⟩, ?_, fun block _ => same.hashes block⟩
    rwa [drop_zero]

/-- The other calls leave the entries of the tables where they are, or append new blocks. -/
theorem allocateNewBlocks_lined {manager manager' : Manager Digest} {pool pool' : Pool Digest}
    {rest : BlockId → Nat} {places : BlockId → Nat → Nat → Prop} (full : Full manager.kvCacheSpec)
    (lined : Lined hash root scaleOf pool manager rest places) {requestId : ReqId}
    {numTokens numTokensMainModel : Int} {newBlocks : List BlockId}
    (allocated : manager.allocateNewBlocks pool requestId numTokens numTokensMainModel =
      some (newBlocks, pool', manager')) :
    Lined hash root scaleOf pool' manager' rest places ∧ SameShape pool pool' ∧
      SameManager manager manager' := by
  have base : manager.baseAllocateNewBlocks pool requestId numTokens =
      some (newBlocks, pool', manager') := by
    unfold Manager.allocateNewBlocks at allocated
    cases kind : manager.kvCacheSpec with
    | fullAttention | mlaAttention => simpa only [kind] using allocated
    | slidingWindow | chunkedLocalAttention | mamba | sinkFullAttention | crossAttention =>
      rw [kind] at full
      exact full.elim
  unfold Manager.baseAllocateNewBlocks at base
  simp only at base
  split at base
  · obtain ⟨-, rfl, rfl⟩ := base
    refine ⟨?_, SameShape.refl pool, ⟨rfl, rfl, rfl, rfl⟩⟩
    have sound := sound_setBlocks pool lined.sound rfl
      lined.sound.hashed lined.sound.counted (lined.sound.single requestId) fun _ _ => rfl
    apply lined.replace requestId (manager.blocksOf requestId) sound rfl (SameShape.refl pool)
      (fun _ => Or.inl rfl)
    · exact fun other => blocksOf_set manager requestId other _
    · exact fun index block listed => Or.inl listed
  · rename_i positive
    obtain ⟨⟨ids, final⟩, got, same⟩ := Option.map_eq_some_iff.mp base
    obtain ⟨-, rfl, rfl⟩ := same
    rw [← Int.toNat_of_nonneg (Int.le_of_lt (Int.not_le.mp positive))] at got
    obtain ⟨appended, shape⟩ := lined.append requestId _ ids got
    obtain ⟨tables, -, noted⟩ := noteNewBlocks_frame
      (manager.setBlocks requestId (manager.blocksOf requestId ++ ids)) ids
    exact ⟨appended.frame noted.kvCacheGroupId tables, shape,
      (setBlocks_same manager requestId _).trans noted⟩

theorem cacheBlocks_lined {manager manager' : Manager Digest} {pool pool' : Pool Digest}
    {rest : BlockId → Nat} {places : BlockId → Nat → Nat → Prop} (full : Full manager.kvCacheSpec)
    (lined : Lined hash root scaleOf pool manager rest places) {request : Request Digest}
    (chained : Chained hash root request)
    (scale : scaleOf manager.kvCacheGroupId = manager.blockSize / pool.hashBlockSize)
    (caching : pool.enableCaching = true) {numTokens : Int}
    (cached : manager.cacheBlocks pool request numTokens = some (pool', manager')) :
    Lined hash root scaleOf pool' manager' rest places ∧ SameShape pool pool' ∧
      SameManager manager manager' := by
  have base : manager.baseCacheBlocks pool request numTokens = some (pool', manager') := by
    unfold Manager.cacheBlocks at cached
    cases kind : manager.kvCacheSpec with
    | fullAttention | mlaAttention => simpa only [kind] using cached
    | slidingWindow | chunkedLocalAttention | mamba | sinkFullAttention | crossAttention =>
      rw [kind] at full
      exact full.elim
  obtain ⟨-, shape, same⟩ := baseCacheBlocks_sound lined.sound base
  exact ⟨lined.cache request chained scale caching numTokens base, shape, same⟩

omit [DecidableEq Digest] in
theorem free_lined {manager manager' : Manager Digest} {pool pool' : Pool Digest}
    {rest : BlockId → Nat} {places : BlockId → Nat → Nat → Prop}
    (lined : Lined hash root scaleOf pool manager rest places) {requestId : ReqId}
    (freed : manager.free pool requestId = some (pool', manager')) :
    Lined hash root scaleOf pool' manager' rest places ∧ SameShape pool pool' ∧
      SameManager manager manager' := by
  obtain ⟨-, shape, same⟩ := free_sound manager pool lined.sound freed
  exact ⟨lined.free requestId freed, shape, same⟩

omit [DecidableEq Digest] in
/-- Full attention skips nothing. -/
theorem removeSkippedBlocks_none {manager : Manager Digest} {pool : Pool Digest}
    (full : Full manager.kvCacheSpec) (requestId : ReqId) (totalComputedTokens : Int) :
    manager.removeSkippedBlocks pool requestId totalComputedTokens = some (pool, manager) := by
  have base : manager.baseRemoveSkippedBlocks pool requestId totalComputedTokens =
      some (pool, manager) := by
    rw [Manager.baseRemoveSkippedBlocks, full_skips manager full, if_pos (Int.le_refl 0)]
  unfold Manager.removeSkippedBlocks
  cases kind : manager.kvCacheSpec with
  | fullAttention | mlaAttention => simpa only [kind] using base
  | slidingWindow | chunkedLocalAttention | mamba | sinkFullAttention | crossAttention =>
    rw [kind] at full
    exact full.elim

end Calls

/-! The groups of one call that adds computed blocks. -/

/-- No block that a group draws is among the hits of a group after it. The groups come in
order, each with its hits and the number of blocks it draws. -/
def DrawsApart : List BlockId → List (List BlockId × Nat) → Prop
  | _, [] => True
  | free, (hits, drawn) :: later =>
    (∀ group ∈ later, ∀ block ∈ group.1,
      block ∉ (free.filter fun block => decide (block ∉ hits)).take drawn) ∧
    DrawsApart ((free.filter fun block => decide (block ∉ hits)).drop drawn) later

instance drawsApartDecidable : (free : List BlockId) → (groups : List (List BlockId × Nat)) →
    Decidable (DrawsApart free groups)
  | _, [] => isTrue trivial
  | free, (hits, drawn) :: later =>
    have := drawsApartDecidable
      ((free.filter fun block => decide (block ∉ hits)).drop drawn) later
    inferInstanceAs (Decidable (_ ∧ _))

/-- The hits of a group and the blocks that it draws. -/
def asksOf (requestId : ReqId) (newComputedBlocks : Option KVCacheBlocks)
    (numLocalComputedTokens numExternalComputedTokens : Int) (manager : Manager Digest) :
    List BlockId × Nat :=
  (hitsOf newComputedBlocks manager,
    if manager.numCachedBlock.contains requestId then 0
    else drawOf manager (hitsOf newComputedBlocks manager) numLocalComputedTokens
      numExternalComputedTokens)

section Adding
variable [DecidableEq Digest] (hash : Digest × Payload Digest → Digest) (root : Digest)
  (scaleOf : Nat → Nat)

/-- What a group still has to find when its turn comes. -/
def Waiting (requestId : ReqId) (newComputedBlocks : Option KVCacheBlocks)
    (numLocalComputedTokens numExternalComputedTokens : Int) (pool : Pool Digest)
    (managers : List (Manager Digest)) : Prop :=
  (∀ manager ∈ managers, Hits hash root scaleOf pool manager.kvCacheGroupId
    (hitsOf newComputedBlocks manager)) ∧
  ∃ free, Queued pool free ∧ DrawsApart free (managers.map
    (asksOf requestId newComputedBlocks numLocalComputedTokens numExternalComputedTokens))

variable {hash root scaleOf}

theorem addGroup_lined (collisionFree : Function.Injective hash)
    (fresh : ∀ input, hash input ≠ root) {manager manager' : Manager Digest}
    {later : List (Manager Digest)} {pool pool' : Pool Digest} {rest : BlockId → Nat}
    {places : BlockId → Nat → Nat → Prop} (full : Full manager.kvCacheSpec)
    (positive : 0 < manager.blockSize) {requestId : ReqId}
    {newComputedBlocks : Option KVCacheBlocks}
    {numLocalComputedTokens numExternalComputedTokens : Int}
    (scaled : hitsOf newComputedBlocks manager ≠ [] → 0 < scaleOf manager.kvCacheGroupId)
    (fits : 0 < numExternalComputedTokens →
      ((hitsOf newComputedBlocks manager).length : Int) * manager.blockSize ≤
        numLocalComputedTokens)
    (waiting : Waiting hash root scaleOf requestId newComputedBlocks numLocalComputedTokens
      numExternalComputedTokens pool (manager :: later))
    (lined : Lined hash root scaleOf pool manager rest places)
    (added : addGroup requestId newComputedBlocks numLocalComputedTokens numExternalComputedTokens
      pool manager = some (pool', manager')) :
    Lined hash root scaleOf pool' manager' rest places ∧ SameShape pool pool' ∧
      SameManager manager manager' ∧ Waiting hash root scaleOf requestId newComputedBlocks
        numLocalComputedTokens numExternalComputedTokens pool' later := by
  obtain ⟨cached, free, queued, apart, apartLater⟩ := waiting
  have here := cached manager mem_cons_self
  have later' : ∀ other ∈ later, Hits hash root scaleOf pool other.kvCacheGroupId
      (hitsOf newComputedBlocks other) :=
    fun other member => cached other (mem_cons_of_mem _ member)
  unfold addGroup at added
  cases given : blocksAt newComputedBlocks manager.kvCacheGroupId with
  | none => simp [given] at added
  | some blocks =>
    have hits : hitsOf newComputedBlocks manager = blocks := by rw [hitsOf, given]; rfl
    simp only [given] at added
    simp only [hits] at apart apartLater
    rw [hits] at here scaled fits
    have turn : (if manager.numCachedBlock.contains requestId then
          if blocks.isEmpty then some (pool, manager) else none
        else if (manager.blocksOf requestId).isEmpty then
          manager.addComputedBlocks pool requestId blocks numLocalComputedTokens
            numExternalComputedTokens
        else none) = some (pool', manager') := by
      unfold Manager.allocateNewComputedBlocks at added
      cases kind : manager.kvCacheSpec with
      | fullAttention | mlaAttention => simpa only [kind] using added
      | slidingWindow | chunkedLocalAttention | mamba | sinkFullAttention | crossAttention =>
        rw [kind] at full
        exact full.elim
    split at turn
    · rename_i known
      split at turn
      · rename_i none
        -- A running request is handed nothing and draws nothing here.
        obtain ⟨rfl, rfl⟩ := Prod.mk.inj (Option.some.inj turn)
        rw [List.isEmpty_iff.mp none, if_pos known, filter_eq_self.mpr (by simp)] at apartLater
        exact ⟨lined, SameShape.refl pool, SameManager.refl manager, later', free, queued,
          apartLater⟩
      · contradiction
    · rename_i unknown
      split at turn
      · rename_i empty
        rw [if_neg unknown] at apart apartLater
        obtain ⟨linedNow, shape, same, queuedNow, others⟩ := addComputedBlocks_lined collisionFree
          fresh full positive lined
          (List.isEmpty_iff.mp empty) here scaled fits queued turn
        refine ⟨linedNow, shape, same, ?_, _, queuedNow, apartLater⟩
        intro other member index block entry
        obtain ⟨key, hashed, fitting⟩ := later' other member index block entry
        have kept := others block (apart _ (mem_map_of_mem member) block (mem_of_getElem? entry))
        exact ⟨key, kept.trans hashed, fitting⟩
      · contradiction

end Adding

end VllmDcu.CommonPrefix

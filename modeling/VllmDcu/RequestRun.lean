import VllmDcu.Admission

/-! A single request from its first token to its last on an idle manager. Whatever
the steps are, the blocks in use at a step depend on the tokens before and after
it only; so the run is never refused exactly when the pool has room for the
largest step from every point. -/
namespace VllmDcu.RequestRun
open Requests FreeBlockQueue BlockPool KVCacheInterface MathUtils SingleTypeManager CacheManager
open PoolCache PoolAccounts TableAccounts PoolInvariant LoneRequest Admission List Dict

variable {Digest : Type}

/-- The blocks that a step up to `numTokens` tokens holds in all groups. -/
def blocksInUse (specs : List KVCacheSpec) (numComputedTokens numTokens : Nat) : Nat :=
  (specs.map fun spec => requiredBlocks spec numTokens - skippedBlocks spec numComputedTokens).sum

/-- The state of the manager when `numComputedTokens` tokens of its only request
are computed. -/
structure Serving (specs : List KVCacheSpec) (numBlocks maxModelLen hashBlockSize : Nat)
    (requestId : ReqId) (numComputedTokens : Nat) (manager : KVCacheManager Digest) : Prop where
  alone : Alone manager.enableCaching requestId manager.coordinator.blockPool
    manager.coordinator.singleTypeManagers fun _ => 0
  size : manager.coordinator.blockPool.numGpuBlocks = numBlocks
  nullInside : manager.coordinator.blockPool.nullBlock < numBlocks
  hashSize : manager.coordinator.blockPool.hashBlockSize = hashBlockSize
  specs : manager.coordinator.specs = specs
  behind : ∀ single ∈ manager.coordinator.singleTypeManagers,
    Behind manager.coordinator.blockPool.nullBlock requestId numComputedTokens single
  maxModelLen : manager.maxModelLen = maxModelLen
  caching : manager.enableCaching = true → ∀ single ∈ manager.coordinator.singleTypeManagers,
    manager.coordinator.blockPool.enableCaching = true ∧ single.blockSize % hashBlockSize = 0

theorem sameManagers_specs (managers managers' : List (Manager Digest))
    (same : List.Forall₂ SameManager managers managers') :
    managers'.map (·.kvCacheSpec) = managers.map (·.kvCacheSpec) := by
  induction same with
  | nil => rfl
  | cons here _ ih => rw [map_cons, map_cons, here.kvCacheSpec, ih]

/-- A call on every manager that returns nothing, for the request alone. -/
theorem forEach_alone {caching : Bool} {requestId : ReqId} {coordinator : Coordinator Digest}
    (call : Pool Digest → Manager Digest → Option (Pool Digest × Manager Digest))
    (before after : Manager Digest → Prop)
    (alone : Alone caching requestId coordinator.blockPool coordinator.singleTypeManagers fun _ => 0)
    (ready : ∀ manager ∈ coordinator.singleTypeManagers, before manager)
    (turns : ∀ manager ∈ coordinator.singleTypeManagers, ∀ pool rest,
      SameShape coordinator.blockPool pool → before manager →
        Seated caching requestId pool manager rest →
          ∃ pool' manager', call pool manager = some (pool', manager') ∧
            Turn caching requestId pool pool' manager manager' rest ∧ after manager') :
    ∃ next, coordinator.forEach call = some next ∧
      Alone caching requestId next.blockPool next.singleTypeManagers (fun _ => 0) ∧
        (∀ manager ∈ next.singleTypeManagers, after manager) ∧ SameCoordinator coordinator next := by
  obtain ⟨results, pool', managers', mapped, alone', done, shape, same, _⟩ :=
    mapManagers_alone caching requestId
      (fun pool manager => (call pool manager).map fun changed => ((), changed)) before after
      (fun _ _ => True) coordinator.blockPool coordinator.blockPool coordinator.singleTypeManagers _
      (by
        intro manager member pool todo rest shape here _ seated
        obtain ⟨pool', manager', called, turn, done⟩ := turns manager member pool rest shape here seated
        exact ⟨(), pool', manager', by rw [called]; rfl, turn, done, trivial⟩)
      (SameShape.refl _) ready trivial alone
  refine ⟨{ coordinator with blockPool := pool', singleTypeManagers := managers' }, ?_, alone', done,
    shape, same⟩
  rw [Coordinator.forEach, mapped]
  rfl

section
variable [DecidableEq Digest]

theorem mapM_some {Value Result : Type} (values : List Value) (call : Value → Option Result)
    (result : Value → Result) (calls : ∀ value ∈ values, call value = some (result value)) :
    values.mapM call = some (values.map result) := by
  induction values with
  | nil => rfl
  | cons value rest ih =>
    have tail := ih fun other member => calls other (mem_cons_of_mem _ member)
    rw [mapM_cons, calls value mem_cons_self, tail]
    rfl

/-- A manager asks for the blocks between its table and the new tokens, whether it
has met the request before or not. -/
theorem numBlocksToAllocate_eq {manager : Manager Digest} {pool : Pool Digest} {requestId : ReqId}
    {nullBlock : BlockId} {numComputedTokens numTokens : Nat} {numTokensMainModel : Int}
    (grows : numComputedTokens ≤ numTokens)
    (holding : Holding nullBlock requestId numComputedTokens numComputedTokens manager) :
    manager.getNumBlocksToAllocate pool requestId numTokens [] numComputedTokens
        numTokensMainModel =
      some ((missingBlocks manager.kvCacheSpec numComputedTokens numTokens : Nat) : Int) := by
  obtain ⟨attends, positive, size, covers⟩ := holding
  have total := covers_length nullBlock covers
  have more := requiredBlocks_mono manager.kvCacheSpec numComputedTokens numTokens grows
  have fits := skipped_le_required manager.kvCacheSpec attends (size ▸ positive) numComputedTokens
  have required : cdiv numTokens manager.blockSize = requiredBlocks manager.kvCacheSpec numTokens := by
    rw [size]
    exact cdiv_eq_required manager.kvCacheSpec (size ▸ positive)
  have skipped : (skippedTokens manager.kvCacheSpec numComputedTokens : Int) /
      (manager.blockSize : Int) = skippedBlocks manager.kvCacheSpec numComputedTokens := by
    rw [size]
    exact (Int.natCast_div _ _).symm
  have base : manager.baseNumBlocksToAllocate pool requestId numTokens [] numComputedTokens =
      some ((missingBlocks manager.kvCacheSpec numComputedTokens numTokens : Nat) : Int) := by
    rw [Manager.baseNumBlocksToAllocate]
    simp only [required, total, getNumSkippedTokens_eq manager attends, skipped, missingBlocks,
      isEmpty_nil, ↓reduceIte, length_nil, drop_nil, Manager.getNumEvictableBlocks,
      countP_nil]
    split
    · rw [Option.some.injEq]
      omega
    · rw [Option.some.injEq]
      omega
  unfold Manager.getNumBlocksToAllocate
  split
  · rename_i spec kind
    rw [kind] at attends
    exact attends.elim
  · exact base

theorem coordinator_numBlocksToAllocate {coordinator : Coordinator Digest} {requestId : ReqId}
    (nullBlock : BlockId) {numComputedTokens numTokens : Nat} (numTokensMainModel : Int)
    (grows : numComputedTokens ≤ numTokens)
    (holding : ∀ manager ∈ coordinator.singleTypeManagers,
      Holding nullBlock requestId numComputedTokens numComputedTokens manager) :
    coordinator.getNumBlocksToAllocate requestId numTokens none 0 numComputedTokens
        numTokensMainModel =
      some (((coordinator.singleTypeManagers.map fun manager =>
        missingBlocks manager.kvCacheSpec numComputedTokens numTokens).sum : Nat) : Int) := by
  unfold Coordinator.getNumBlocksToAllocate
  rw [mapM_some coordinator.singleTypeManagers _
    (fun manager => ((missingBlocks manager.kvCacheSpec numComputedTokens numTokens : Nat) : Int))]
  · rw [Nat.cast_list_sum, map_map]
    rfl
  · intro manager member
    have here := holding manager member
    split
    · rename_i spec kind
      have attends := here.1
      rw [kind] at attends
      exact attends.elim
    · exact numBlocksToAllocate_eq grows here

variable (specs : List KVCacheSpec)

omit [DecidableEq Digest] in
/-- Free and missing blocks against the whole pool: skipped blocks are free again. -/
theorem provides_iff {caching : Bool} {requestId : ReqId} {pool : Pool Digest}
    {managers : List (Manager Digest)} {numComputedTokens numTokens : Nat}
    (grows : numComputedTokens ≤ numTokens) (same : managers.map (·.kvCacheSpec) = specs)
    (alone : Alone caching requestId pool managers fun _ => 0)
    (nullInside : pool.nullBlock < pool.numGpuBlocks)
    (holding : ∀ manager ∈ managers,
      Holding pool.nullBlock requestId numComputedTokens numComputedTokens manager) :
    Provides numComputedTokens numTokens pool managers ↔
      blocksInUse specs numComputedTokens numTokens < pool.numGpuBlocks := by
  have free := free_count caching requestId pool managers alone nullInside
  have each : ∀ manager ∈ managers,
      ((liveBlocks pool.nullBlock manager requestId).length : Int) +
          (missingBlocks manager.kvCacheSpec numComputedTokens numTokens : Int) =
        ((requiredBlocks manager.kvCacheSpec numTokens -
          skippedBlocks manager.kvCacheSpec numComputedTokens : Nat) : Int) := by
    intro manager member
    obtain ⟨attends, positive, size, covers⟩ := holding manager member
    have live := covers_live pool.nullBlock _ _ _ covers
    have more := requiredBlocks_mono manager.kvCacheSpec numComputedTokens numTokens grows
    simp only [liveBlocks, missingBlocks]
    omega
  have sum : (managers.map fun manager =>
        ((liveBlocks pool.nullBlock manager requestId).length : Int)).sum +
      (managers.map fun manager =>
        (missingBlocks manager.kvCacheSpec numComputedTokens numTokens : Int)).sum =
      (blocksInUse specs numComputedTokens numTokens : Int) := by
    rw [← sum_map_add, map_congr_left each, ← same, blocksInUse, map_map,
      Nat.cast_list_sum, map_map]
    rfl
  have cast : ((managers.map fun manager =>
      missingBlocks manager.kvCacheSpec numComputedTokens numTokens).sum : Nat) =
        (managers.map fun manager =>
          (missingBlocks manager.kvCacheSpec numComputedTokens numTokens : Int)).sum := by
    rw [Nat.cast_list_sum, map_map]
    rfl
  unfold Provides
  omega

/-- The request as a step finds it: its hashes cover its tokens. -/
structure Prepared (requestId : ReqId) (hashBlockSize maxModelLen numComputedTokens : Nat)
    (request : Request Digest) (numNewTokens : Nat) : Prop where
  requestId : request.requestId = requestId
  computed : request.numComputedTokens = numComputedTokens
  some : 0 < numNewTokens
  known : numComputedTokens + numNewTokens ≤ request.numTokens
  bounded : request.numTokens ≤ maxModelLen
  hashes : request.blockHashes.length = request.numTokens / hashBlockSize

def stepArgs (numNewTokens : Nat) : KVCacheManager.AllocateArgs :=
  ⟨numNewTokens, 0, none, 0, 0, false, 0⟩

variable (numBlocks maxModelLen hashBlockSize : Nat)

omit [DecidableEq Digest] in
theorem serving_after {requestId : ReqId} {numComputedTokens numTokens : Nat}
    (grows : numComputedTokens ≤ numTokens) {manager : KVCacheManager Digest}
    {coordinator : Coordinator Digest}
    (serving : Serving specs numBlocks maxModelLen hashBlockSize requestId numComputedTokens
      manager) (same : SameCoordinator manager.coordinator coordinator)
    (alone : Alone manager.enableCaching requestId coordinator.blockPool
      coordinator.singleTypeManagers fun _ => 0)
    (holding : ∀ single ∈ coordinator.singleTypeManagers,
      Holding manager.coordinator.blockPool.nullBlock requestId numComputedTokens numTokens single) :
    Serving specs numBlocks maxModelLen hashBlockSize requestId numTokens
      { manager with coordinator := coordinator } := by
  constructor
  · exact alone
  · exact same.shape.numGpuBlocks.trans serving.size
  · rw [same.shape.nullBlock]
    exact serving.nullInside
  · exact same.shape.hashBlockSize.trans serving.hashSize
  · exact (sameManagers_specs _ _ same.managers).trans serving.specs
  · intro single member
    obtain ⟨attends, positive, size, covers⟩ := holding single member
    rw [same.shape.nullBlock]
    exact ⟨attends, positive, size, _,
      skippedBlocks_mono single.kvCacheSpec numComputedTokens numTokens grows, covers⟩
  · exact serving.maxModelLen
  · intro on single member
    obtain ⟨old, inOld, keeps⟩ := forall₂_right same.managers single member
    rw [same.shape.enableCaching, keeps.blockSize]
    exact serving.caching on old inOld

/-- The call on one group; there is no encoder. -/
def allocateGroup (requestId : ReqId) (numTokens numTokensMainModel : Int) (pool : Pool Digest)
    (manager : Manager Digest) : Option (List BlockId × Pool Digest × Manager Digest) :=
  let numTokens : Int :=
    match manager.kvCacheSpec with
    | .crossAttention _ => (0 : Nat)
    | _ => numTokens
  manager.allocateNewBlocks pool requestId numTokens numTokensMainModel

theorem allocateNewBlocks_alone {caching : Bool} {requestId : ReqId} (nullBlock : BlockId)
    {coordinator : Coordinator Digest} {numComputedTokens numTokens : Nat}
    {numTokensMainModel : Int} (grows : numComputedTokens ≤ numTokens)
    (cleared : caching = true → ∀ manager ∈ coordinator.singleTypeManagers,
      coordinator.blockPool.enableCaching = true)
    (null : coordinator.blockPool.nullBlock = nullBlock)
    (alone : Alone caching requestId coordinator.blockPool coordinator.singleTypeManagers fun _ => 0)
    (holding : ∀ manager ∈ coordinator.singleTypeManagers,
      Holding nullBlock requestId numComputedTokens numComputedTokens manager)
    (provided : Provides numComputedTokens numTokens coordinator.blockPool
      coordinator.singleTypeManagers) :
    ∃ blocks next, coordinator.allocateNewBlocks requestId numTokens numTokensMainModel 0 =
        some (blocks, next) ∧
      Alone caching requestId next.blockPool next.singleTypeManagers (fun _ => 0) ∧
        (∀ manager ∈ next.singleTypeManagers,
          Holding nullBlock requestId numComputedTokens numTokens manager) ∧
          SameCoordinator coordinator next := by
  subst null
  obtain ⟨blocks, pool, managers, mapped, alone', holding', shape, same, _⟩ :=
    mapManagers_alone caching requestId (allocateGroup requestId numTokens numTokensMainModel)
      (Holding coordinator.blockPool.nullBlock requestId numComputedTokens numComputedTokens)
      (Holding coordinator.blockPool.nullBlock requestId numComputedTokens numTokens)
      (Provides numComputedTokens numTokens) coordinator.blockPool coordinator.blockPool
      coordinator.singleTypeManagers _
      (by
        intro manager member pool todo rest shape here provided seated
        have attends := here.1
        rw [← shape.nullBlock] at here ⊢
        have decoder : allocateGroup requestId numTokens numTokensMainModel pool manager =
            manager.allocateNewBlocks pool requestId numTokens numTokensMainModel := by
          unfold allocateGroup
          split
          · rename_i spec kind
            rw [kind] at attends
            exact attends.elim
          · rfl
        rw [decoder]
        exact allocate_turn grows
          (fun on => by
            rw [shape.enableCaching]
            exact cleared on manager member)
          here provided seated)
      (SameShape.refl _) holding provided alone
  refine ⟨blocks, { coordinator with blockPool := pool, singleTypeManagers := managers }, ?_, alone',
    holding', shape, same⟩
  unfold Coordinator.allocateNewBlocks
  exact congrArg (Option.map _) mapped

variable (request : Request Digest)

theorem cacheBlocks_alone (nullBlock : BlockId) {coordinator : Coordinator Digest}
    {numComputedTokens numTokens : Nat} (known : numTokens ≤ request.numTokens)
    (complete : request.blockHashes.length =
      request.numTokens / coordinator.blockPool.hashBlockSize)
    (divides : ∀ manager ∈ coordinator.singleTypeManagers,
      manager.blockSize % coordinator.blockPool.hashBlockSize = 0)
    (null : coordinator.blockPool.nullBlock = nullBlock)
    (alone : Alone true request.requestId coordinator.blockPool coordinator.singleTypeManagers
      fun _ => 0)
    (holding : ∀ manager ∈ coordinator.singleTypeManagers,
      Holding nullBlock request.requestId numComputedTokens numTokens manager) :
    ∃ next, coordinator.cacheBlocks request numTokens = some next ∧
      Alone true request.requestId next.blockPool next.singleTypeManagers (fun _ => 0) ∧
        (∀ manager ∈ next.singleTypeManagers,
          Holding nullBlock request.requestId numComputedTokens numTokens manager) ∧
          SameCoordinator coordinator next := by
  subst null
  apply forEach_alone
    (fun pool manager => manager.cacheBlocks pool request numTokens) _ _ alone holding
  intro manager member pool rest shape here seated
  rw [← shape.nullBlock] at here ⊢
  apply cache_turn known _ _ here seated
  · rw [shape.hashBlockSize]
    exact complete
  · rw [shape.hashBlockSize]
    exact divides manager member

/-- What `allocate_slots` does once the skipped blocks are removed and the missing
ones are counted. -/
theorem allocateSlots_removed {manager : KVCacheManager Digest} {request : Request Digest}
    {requestId : ReqId} (named : request.requestId = requestId)
    {numComputedTokens numNewTokens asked : Nat} (positive : 0 < numNewTokens)
    (computed : request.numComputedTokens = numComputedTokens)
    (bounded : numComputedTokens + numNewTokens ≤ manager.maxModelLen)
    {removed : Coordinator Digest}
    (removal : manager.coordinator.removeSkippedBlocks requestId numComputedTokens = some removed)
    (sum : removed.getNumBlocksToAllocate requestId ((numComputedTokens + numNewTokens : Nat) : Int)
      none 0 numComputedTokens (numComputedTokens + numNewTokens) = some (asked : Int)) :
    manager.allocateSlots request (stepArgs numNewTokens) =
      if (asked : Int) > removed.blockPool.getNumFreeBlocks then
        some (none, { manager with coordinator := removed })
      else
        match removed.allocateNewBlocks requestId ((numComputedTokens + numNewTokens : Nat) : Int)
            (numComputedTokens + numNewTokens) 0 with
        | none => none
        | some (newBlocks, allocated) =>
          if manager.enableCaching = false then
            some (some newBlocks, { manager with coordinator := allocated })
          else
            (allocated.cacheBlocks request (min (numComputedTokens + numNewTokens)
              request.numTokens)).map fun cached =>
                (some newBlocks, { manager with coordinator := cached }) := by
  have total : min (numComputedTokens : Int) manager.maxModelLen = numComputedTokens := by omega
  have slots : min ((numComputedTokens : Int) + numNewTokens) manager.maxModelLen =
      ((numComputedTokens + numNewTokens : Nat) : Int) := by
    omega
  have given : ¬ (numNewTokens = 0 ∧ (0 : Nat) = 0) := by omega
  unfold KVCacheManager.allocateSlots stepArgs
  rw [if_neg given]
  simp only [Nat.cast_zero, add_zero, computed, named, total, slots, removal, sum, ne_eq,
    not_true_eq_false, gt_iff_lt, lt_self_iff_false, or_self, ↓reduceIte, Bool.false_eq_true, or_false]
  all_goals rfl

theorem allocateSlots_serving {requestId : ReqId} {numComputedTokens : Nat}
    {manager : KVCacheManager Digest}
    (serving : Serving specs numBlocks maxModelLen hashBlockSize requestId numComputedTokens
      manager) {request : Request Digest} {numNewTokens : Nat}
    (prepared : Prepared requestId hashBlockSize maxModelLen numComputedTokens request numNewTokens)
      :
    (blocksInUse specs numComputedTokens (numComputedTokens + numNewTokens) < numBlocks →
      ∃ blocks next, manager.allocateSlots request (stepArgs numNewTokens) =
          some (some blocks, next) ∧
        Serving specs numBlocks maxModelLen hashBlockSize requestId
          (numComputedTokens + numNewTokens) next) ∧
    (numBlocks ≤ blocksInUse specs numComputedTokens (numComputedTokens + numNewTokens) →
      ∃ next, manager.allocateSlots request (stepArgs numNewTokens) = some (none, next)) := by
  let numTokens := numComputedTokens + numNewTokens
  have grows : numComputedTokens ≤ numTokens := Nat.le_add_right _ _
  have known := prepared.known
  have bounded := prepared.bounded
  -- the skipped blocks are returned first
  obtain ⟨removed, removal, aloneRemoved, holding, sameRemoved⟩ := forEach_alone
    (fun pool single => single.removeSkippedBlocks pool requestId numComputedTokens)
    (Behind manager.coordinator.blockPool.nullBlock requestId numComputedTokens)
    (Holding manager.coordinator.blockPool.nullBlock requestId numComputedTokens numComputedTokens)
    serving.alone serving.behind (by
      intro single member pool rest shape behind seated
      rw [← shape.nullBlock] at behind ⊢
      exact removeSkipped_turn manager.enableCaching requestId pool behind seated)
  have null := sameRemoved.shape.nullBlock
  let asked := (removed.singleTypeManagers.map fun single =>
    missingBlocks single.kvCacheSpec numComputedTokens numTokens).sum
  have sum := coordinator_numBlocksToAllocate _ (numComputedTokens + numNewTokens) grows holding
  have specsNow : removed.singleTypeManagers.map (·.kvCacheSpec) = specs :=
    (sameManagers_specs _ _ sameRemoved.managers).trans serving.specs
  have room := provides_iff specs grows specsNow aloneRemoved
    (by rw [null, sameRemoved.shape.numGpuBlocks, serving.size]; exact serving.nullInside)
    (by rw [null]; exact holding)
  rw [sameRemoved.shape.numGpuBlocks, serving.size] at room
  have outcome := allocateSlots_removed prepared.requestId prepared.some prepared.computed
    (by rw [serving.maxModelLen]; omega) removal sum
  constructor
  · intro fits
    have provided := room.mpr fits
    have enough : ¬ (asked : Int) > removed.blockPool.getNumFreeBlocks := Int.not_lt.mpr provided
    rw [if_neg enough] at outcome
    obtain ⟨blocks, allocated, result, aloneAllocated, holdingAllocated, sameAllocated⟩ :=
      allocateNewBlocks_alone _ grows
        (fun on single member => by
          obtain ⟨old, inOld, _⟩ := forall₂_right sameRemoved.managers single member
          rw [sameRemoved.shape.enableCaching]
          exact (serving.caching on old inOld).1)
        null aloneRemoved holding provided
    have upTo := sameRemoved.trans sameAllocated
    have found : removed.allocateNewBlocks requestId ((numComputedTokens + numNewTokens : Nat) : Int)
        (numComputedTokens + numNewTokens) 0 = some (blocks, allocated) := result
    simp only [found] at outcome
    by_cases off : manager.enableCaching = false
    · rw [if_pos off] at outcome
      exact ⟨blocks, _, outcome, serving_after specs numBlocks maxModelLen hashBlockSize grows serving upTo aloneAllocated
        holdingAllocated⟩
    · rw [if_neg off] at outcome
      have on : manager.enableCaching = true := by simpa using off
      have size : allocated.blockPool.hashBlockSize = hashBlockSize :=
        upTo.shape.hashBlockSize.trans serving.hashSize
      have named := prepared.requestId
      subst named
      rw [on] at aloneAllocated
      obtain ⟨cached, caching, aloneCached, holdingCached, sameCached⟩ := cacheBlocks_alone request _ known (by rw [size]; exact prepared.hashes)
        (by
          intro single member
          obtain ⟨old, inOld, keeps⟩ := forall₂_right upTo.managers single member
          rw [size, keeps.blockSize]
          exact (serving.caching on old inOld).2)
        upTo.shape.nullBlock aloneAllocated holdingAllocated
      have upToTokens : min ((numComputedTokens : Int) + numNewTokens) request.numTokens =
          (numTokens : Int) := by
        omega
      rw [upToTokens, caching] at outcome
      refine ⟨blocks, _, outcome, serving_after specs numBlocks maxModelLen hashBlockSize grows serving (upTo.trans sameCached) ?_
        holdingCached⟩
      rw [on]
      exact aloneCached
  · intro short
    have lacking : (asked : Int) > removed.blockPool.getNumFreeBlocks := by
      apply Int.not_le.mp
      intro provided
      exact Nat.not_lt.mpr short (room.mp provided)
    rw [if_pos lacking] at outcome
    exact ⟨_, outcome⟩

/-! Whole runs. -/

/-- The steps of a run: at each the request as it stands and its new tokens, at
most `maxNumBatchedTokens`, until all tokens are computed. -/
def Chunking (requestId : ReqId) (hashBlockSize maxNumBatchedTokens maxModelLen : Nat) :
    Nat → List (Request Digest × Nat) → Prop
  | numComputedTokens, [] => numComputedTokens = maxModelLen
  | numComputedTokens, (request, numNewTokens) :: rest =>
    Prepared requestId hashBlockSize maxModelLen numComputedTokens request numNewTokens ∧
      numNewTokens ≤ maxNumBatchedTokens ∧
        Chunking requestId hashBlockSize maxNumBatchedTokens maxModelLen
          (numComputedTokens + numNewTokens) rest

/-- Every `allocate_slots` call of the run returns blocks. -/
def Admitted : KVCacheManager Digest → List (Request Digest × Nat) → Prop
  | _, [] => True
  | manager, (request, numNewTokens) :: rest =>
    ∃ blocks next, manager.allocateSlots request (stepArgs numNewTokens) =
      some (some blocks, next) ∧ Admitted next rest

omit [DecidableEq Digest] in
theorem blocksInUse_mono (numComputedTokens few many : Nat) (grows : few ≤ many) :
    blocksInUse specs numComputedTokens few ≤ blocksInUse specs numComputedTokens many := by
  apply sum_le_sum
  intro spec _
  have := requiredBlocks_mono spec few many grows
  omega

variable (maxNumBatchedTokens : Nat)

theorem run_admitted (requestId : ReqId)
    (room : ∀ numComputedTokens < maxModelLen, blocksInUse specs numComputedTokens
      (min (numComputedTokens + maxNumBatchedTokens) maxModelLen) < numBlocks)
    (steps : List (Request Digest × Nat)) (numComputedTokens : Nat)
    (manager : KVCacheManager Digest)
    (serving : Serving specs numBlocks maxModelLen hashBlockSize requestId numComputedTokens
      manager)
    (chunking : Chunking requestId hashBlockSize maxNumBatchedTokens maxModelLen numComputedTokens
      steps) : Admitted manager steps := by
  induction steps generalizing numComputedTokens manager with
  | nil => trivial
  | cons step rest ih =>
    obtain ⟨request, numNewTokens⟩ := step
    obtain ⟨prepared, batched, later⟩ := chunking
    have positive := prepared.some
    have known := prepared.known
    have bounded := prepared.bounded
    have most := blocksInUse_mono specs numComputedTokens (numComputedTokens + numNewTokens)
      (min (numComputedTokens + maxNumBatchedTokens) maxModelLen) (by omega)
    have here := room numComputedTokens (by omega)
    obtain ⟨blocks, next, slots, servingNext⟩ := (allocateSlots_serving specs numBlocks
      maxModelLen hashBlockSize serving
      prepared).1 (by omega)
    exact ⟨blocks, next, slots, ih _ next servingNext later⟩

omit [DecidableEq Digest] in
/-- The request with all its tokens, at some point of its run. -/
theorem prepared_at {hashBlockSize maxModelLen : Nat} (tokens : request.numTokens = maxModelLen)
    (hashes : request.blockHashes.length = maxModelLen / hashBlockSize)
    (numComputedTokens numNewTokens : Nat) (positive : 0 < numNewTokens)
    (bounded : numComputedTokens + numNewTokens ≤ maxModelLen) :
    Prepared request.requestId hashBlockSize maxModelLen numComputedTokens
      { request with numComputedTokens := numComputedTokens } numNewTokens := by
  have same : ({ request with numComputedTokens := numComputedTokens } : Request Digest).numTokens =
      request.numTokens := rfl
  constructor
  · rfl
  · rfl
  · exact positive
  · omega
  · rw [same, tokens]
  · rw [same, tokens]
    exact hashes

omit [DecidableEq Digest] in
/-- From every point the run can be finished one token at a time. -/
theorem chunking_exists {hashBlockSize maxNumBatchedTokens maxModelLen : Nat}
    (batched : 0 < maxNumBatchedTokens) (tokens : request.numTokens = maxModelLen)
    (hashes : request.blockHashes.length = maxModelLen / hashBlockSize)
    (left numComputedTokens : Nat) (total : numComputedTokens + left = maxModelLen) :
    ∃ steps : List (Request Digest × Nat), Chunking request.requestId hashBlockSize
      maxNumBatchedTokens maxModelLen numComputedTokens steps := by
  induction left generalizing numComputedTokens with
  | zero => exact ⟨[], total⟩
  | succ left ih =>
    obtain ⟨steps, chunking⟩ := ih (numComputedTokens + 1) (by omega)
    have prepared := prepared_at request tokens hashes numComputedTokens
      1 (Nat.succ_pos 0) (by omega)
    exact ⟨(_, 1) :: steps, prepared, batched, chunking⟩

/-- When every run is admitted, one that reaches any point token by token still is. -/
theorem serving_at (batched : 0 < maxNumBatchedTokens) {request : Request Digest}
    (tokens : request.numTokens = maxModelLen)
    (hashes : request.blockHashes.length = maxModelLen / hashBlockSize)
    {manager : KVCacheManager Digest}
    (serving : Serving specs numBlocks maxModelLen hashBlockSize request.requestId 0 manager)
    (admitted : ∀ steps, Chunking request.requestId hashBlockSize maxNumBatchedTokens maxModelLen 0
      steps → Admitted manager steps) {numComputedTokens : Nat}
    (bounded : numComputedTokens ≤ maxModelLen) :
    ∃ reached : KVCacheManager Digest, Serving specs numBlocks maxModelLen hashBlockSize
        request.requestId numComputedTokens reached ∧
      ∀ steps, Chunking request.requestId hashBlockSize maxNumBatchedTokens maxModelLen
        numComputedTokens steps → Admitted reached steps := by
  induction numComputedTokens with
  | zero => exact ⟨manager, serving, admitted⟩
  | succ numComputedTokens ih =>
    obtain ⟨reached, servingHere, admittedHere⟩ := ih (by omega)
    have prepared := prepared_at request tokens hashes numComputedTokens
      1 (Nat.succ_pos 0) bounded
    have outcome := allocateSlots_serving specs numBlocks maxModelLen hashBlockSize servingHere prepared
    obtain ⟨rest, chunking⟩ := chunking_exists request batched tokens hashes (maxModelLen - (numComputedTokens + 1))
      (numComputedTokens + 1) (by omega)
    obtain ⟨blocks, next, slots, _⟩ := admittedHere ((_, 1) :: rest) ⟨prepared, batched, chunking⟩
    rcases Nat.lt_or_ge (blocksInUse specs numComputedTokens (numComputedTokens + 1)) numBlocks
      with fits | short
    · obtain ⟨_, next', slots', servingNext⟩ := outcome.1 fits
      refine ⟨next', servingNext, fun steps later => ?_⟩
      obtain ⟨_, other, again, admittedRest⟩ :=
        admittedHere ((_, 1) :: steps) ⟨prepared, batched, later⟩
      rw [slots', Option.some.injEq, Prod.mk.injEq] at again
      exact again.2 ▸ admittedRest
    · obtain ⟨_, refused⟩ := outcome.2 short
      rw [refused, Option.some.injEq, Prod.mk.injEq] at slots
      exact absurd slots.1 (by simp)

theorem run_admitted_iff (batched : 0 < maxNumBatchedTokens) (request : Request Digest)
    (tokens : request.numTokens = maxModelLen)
    (hashes : request.blockHashes.length = maxModelLen / hashBlockSize)
    (manager : KVCacheManager Digest)
    (serving : Serving specs numBlocks maxModelLen hashBlockSize request.requestId 0 manager) :
    (∀ steps, Chunking request.requestId hashBlockSize maxNumBatchedTokens maxModelLen 0 steps →
        Admitted manager steps) ↔
      ∀ numComputedTokens < maxModelLen, blocksInUse specs numComputedTokens
        (min (numComputedTokens + maxNumBatchedTokens) maxModelLen) < numBlocks := by
  constructor
  · intro admitted numComputedTokens less
    obtain ⟨reached, servingHere, admittedHere⟩ := serving_at specs numBlocks maxModelLen
      hashBlockSize maxNumBatchedTokens batched tokens hashes serving admitted (Nat.le_of_lt less)
    -- the largest step from here, and then token by token
    let numNewTokens := min maxNumBatchedTokens (maxModelLen - numComputedTokens)
    have prepared := prepared_at request tokens hashes numComputedTokens
      numNewTokens (by omega) (by omega)
    obtain ⟨rest, chunking⟩ := chunking_exists request batched tokens hashes (maxModelLen - (numComputedTokens + numNewTokens))
      (numComputedTokens + numNewTokens) (by omega)
    obtain ⟨blocks, next, slots, _⟩ :=
      admittedHere ((_, numNewTokens) :: rest) ⟨prepared, Nat.min_le_left _ _, chunking⟩
    have upTo : min (numComputedTokens + maxNumBatchedTokens) maxModelLen =
        numComputedTokens + numNewTokens := by omega
    rw [upTo]
    by_contra short
    obtain ⟨_, refused⟩ := (allocateSlots_serving specs numBlocks maxModelLen hashBlockSize servingHere prepared).2
      (Nat.le_of_not_lt short)
    rw [refused, Option.some.injEq, Prod.mk.injEq] at slots
    exact absurd slots.1 (by simp)
  · intro room steps chunking
    exact run_admitted specs numBlocks maxModelLen hashBlockSize maxNumBatchedTokens
      request.requestId room steps 0 manager serving chunking

end

/-! The idle manager. -/

/-- No request has blocks; earlier requests may have left cached ones behind. -/
structure Idle (config : KVCacheConfig) (maxModelLen : Nat) (manager : KVCacheManager Digest) :
    Prop where
  accounted : Accounted manager.coordinator
  size : manager.coordinator.blockPool.numGpuBlocks = config.numBlocks
  nullInside : manager.coordinator.blockPool.nullBlock < config.numBlocks
  specs : manager.coordinator.specs = config.kvCacheGroups
  blockSizes : ∀ single ∈ manager.coordinator.singleTypeManagers,
    single.blockSize = single.kvCacheSpec.blockSize
  noTables : ∀ single ∈ manager.coordinator.singleTypeManagers, ∀ requestId,
    single.blocksOf requestId = []
  maxModelLen : manager.maxModelLen = maxModelLen
  caching : manager.enableCaching = true → ∀ single ∈ manager.coordinator.singleTypeManagers,
    manager.coordinator.blockPool.enableCaching = true ∧
      single.blockSize % manager.coordinator.blockPool.hashBlockSize = 0

theorem idle_serving (config : KVCacheConfig) (maxModelLen : Nat) (manager : KVCacheManager Digest)
    (idle : Idle config maxModelLen manager)
    (attends : ∀ spec ∈ config.kvCacheGroups, Attends spec) (requestId : ReqId) :
    Serving config.kvCacheGroups config.numBlocks maxModelLen
      manager.coordinator.blockPool.hashBlockSize requestId 0 manager := by
  have unused : ∀ single ∈ manager.coordinator.singleTypeManagers, ∀ block,
      occurrences single block = 0 := by
    intro single member block
    apply total_eq_zero
    intro other
    rw [blocksOf_measure, idle.noTables single member other]
    rfl
  have noReferences (block : BlockId) :
      references manager.coordinator.singleTypeManagers block = 0 := by
    apply sum_eq_zero
    intro count member
    obtain ⟨single, inside, rfl⟩ := mem_map.mp member
    exact unused single inside block
  constructor
  · constructor
    · exact idle.accounted.balanced
    · intro block _
      simp only [noReferences block]
      exact Nat.zero_le 1
    · intro single member block
      rw [unused single member block, idle.noTables single member requestId]
      rfl
    · intro _ single member index block _ entry _
      rw [idle.noTables single member requestId] at entry
      contradiction
  · exact idle.size
  · exact idle.nullInside
  · rfl
  · exact idle.specs
  · intro single member
    have size := idle.blockSizes single member
    have positive := (idle.accounted.managed single member).2
    have inside : single.kvCacheSpec ∈ config.kvCacheGroups := by
      rw [← idle.specs]
      exact mem_map_of_mem member
    refine ⟨attends _ inside, positive, size, 0, Nat.zero_le _, ?_⟩
    have zero : requiredBlocks single.kvCacheSpec 0 = 0 := by
      exact Nat.div_eq_of_lt (by omega)
    rw [idle.noTables single member requestId, zero]
    exact ⟨[], rfl, by simp, rfl⟩
  · exact idle.maxModelLen
  · exact idle.caching

end VllmDcu.RequestRun

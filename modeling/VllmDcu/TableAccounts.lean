import VllmDcu.SingleTypeManager
import VllmDcu.PoolAccounts

/-! The block tables against the accounts of the pool: the references to a block
are its table entries in all managers, and no table has a block twice. One
lemma for each operation of a manager; `rest` counts the entries of the other
managers. -/
namespace VllmDcu.TableAccounts
open Requests FreeBlockQueue BlockPool KVCacheInterface MathUtils SingleTypeManager
open PoolCache PoolAccounts List Dict

variable {Digest : Type}

/-- The entries of a block in the tables of one manager. -/
def occurrences (manager : Manager Digest) (block : BlockId) : Nat :=
  manager.reqToBlocks.total fun blocks => blocks.count block

def Single (nullBlock : BlockId) (blocks : List BlockId) : Prop :=
  ∀ block, block ≠ nullBlock → blocks.count block ≤ 1

structure Sound (pool : Pool Digest) (manager : Manager Digest) (rest : BlockId → Nat) : Prop where
  hashed : Hashed pool
  counted : Counted pool (fun block => occurrences manager block + rest block) fun _ => False
  single : ∀ requestId, Single pool.nullBlock (manager.blocksOf requestId)

/-- What no operation of a manager changes. -/
structure SameManager (manager manager' : Manager Digest) : Prop where
  kvCacheSpec : manager'.kvCacheSpec = manager.kvCacheSpec
  blockSize : manager'.blockSize = manager.blockSize
  enableCaching : manager'.enableCaching = manager.enableCaching
  kvCacheGroupId : manager'.kvCacheGroupId = manager.kvCacheGroupId

variable (manager : Manager Digest)

theorem SameManager.refl : SameManager manager manager := ⟨rfl, rfl, rfl, rfl⟩

theorem SameManager.trans {first second third : Manager Digest} (one : SameManager first second)
    (two : SameManager second third) : SameManager first third :=
  ⟨two.kvCacheSpec.trans one.kvCacheSpec, two.blockSize.trans one.blockSize,
    two.enableCaching.trans one.enableCaching, two.kvCacheGroupId.trans one.kvCacheGroupId⟩

/-! Tables. -/

variable (requestId : ReqId)

theorem blocksOf_measure (block : BlockId) :
    Dict.measureAt (fun blocks => blocks.count block) manager.reqToBlocks requestId =
      (manager.blocksOf requestId).count block := by
  unfold measureAt Manager.blocksOf
  cases manager.reqToBlocks.get? requestId with
  | none => rfl
  | some blocks => rfl

theorem occurrences_le (block : BlockId) :
    (manager.blocksOf requestId).count block ≤ occurrences manager block := by
  rw [← blocksOf_measure]
  exact measure_le_total _ _ _

@[simp] theorem blocksOf_set (other : ReqId) (blocks : List BlockId) :
    (manager.setBlocks requestId blocks).blocksOf other =
      if other = requestId then blocks else manager.blocksOf other := by
  simp only [Manager.blocksOf, Manager.setBlocks, get?_set]
  by_cases same : other = requestId
  · simp [same]
  · simp [same]

variable (blocks : List BlockId)

theorem occurrences_set (block : BlockId) :
    occurrences (manager.setBlocks requestId blocks) block +
        (manager.blocksOf requestId).count block =
      occurrences manager block + blocks.count block := by
  rw [← blocksOf_measure]
  exact total_set _ _ _ _

theorem setBlocks_same :
    SameManager manager (manager.setBlocks requestId blocks) := ⟨rfl, rfl, rfl, rfl⟩

theorem noteNewBlocks_frame :
    (manager.noteNewBlocks blocks).reqToBlocks = manager.reqToBlocks ∧
      (manager.noteNewBlocks blocks).numCachedBlock = manager.numCachedBlock ∧
      SameManager manager (manager.noteNewBlocks blocks) := by
  unfold Manager.noteNewBlocks
  split
  · exact ⟨rfl, rfl, rfl, rfl, rfl, rfl⟩
  · exact ⟨rfl, rfl, SameManager.refl manager⟩

theorem occurrences_frame {manager manager' : Manager Digest}
    (tables : manager'.reqToBlocks = manager.reqToBlocks) :
    occurrences manager' = occurrences manager := by
  funext block
  rw [occurrences, tables]
  rfl

theorem blocksOf_frame {manager manager' : Manager Digest}
    (tables : manager'.reqToBlocks = manager.reqToBlocks) (requestId : ReqId) :
    manager'.blocksOf requestId = manager.blocksOf requestId := by
  rw [Manager.blocksOf, tables]
  rfl

variable (pool : Pool Digest)

/-- Only the tables matter to the accounts. -/
theorem sound_frame {manager manager' : Manager Digest} {rest : BlockId → Nat}
    (sound : Sound pool manager rest) (tables : manager'.reqToBlocks = manager.reqToBlocks) :
    Sound pool manager' rest := by
  constructor
  · exact sound.hashed
  · rw [occurrences_frame tables]
    exact sound.counted
  · intro requestId
    rw [Manager.blocksOf, tables]
    exact sound.single requestId

theorem table_valid {manager : Manager Digest} {rest : BlockId → Nat}
    (sound : Sound pool manager rest) {requestId : ReqId} :
    ∀ block ∈ manager.blocksOf requestId, block = pool.nullBlock ∨ block < pool.numGpuBlocks := by
  intro block member
  by_cases null : block = pool.nullBlock
  · exact Or.inl null
  · have present := count_pos_iff.mpr member
    have most := occurrences_le manager requestId block
    exact Or.inr (sound.counted.inside block null (by omega))

/-- A table is replaced, and the accounts of the pool follow. -/
theorem sound_setBlocks {pool' : Pool Digest} {manager : Manager Digest} {rest refs : BlockId → Nat}
    {requestId : ReqId} {blocks : List BlockId} (sound : Sound pool manager rest)
    (null : pool'.nullBlock = pool.nullBlock) (hashed : Hashed pool')
    (counted : Counted pool' refs fun _ => False) (single : Single pool.nullBlock blocks)
    (balance : ∀ block, block ≠ pool.nullBlock →
      refs block + (manager.blocksOf requestId).count block =
        occurrences manager block + rest block + blocks.count block) :
    Sound pool' (manager.setBlocks requestId blocks) rest := by
  constructor
  · exact hashed
  · apply counted_congr pool' _ _ _ _ counted
    · intro block real
      rw [null] at real
      have := balance block real
      have := occurrences_set manager requestId blocks block
      omega
    · simp
  · intro other
    rw [null, blocksOf_set]
    split
    · exact single
    · exact sound.single other

theorem free_sound {requestId : ReqId} {rest : BlockId → Nat} (sound : Sound pool manager rest)
    {pool' : Pool Digest} {manager' : Manager Digest}
    (freed : manager.free pool requestId = some (pool', manager')) :
    Sound pool' manager' rest ∧ SameShape pool pool' ∧ SameManager manager manager' := by
  obtain ⟨final, result, same, counted⟩ := freeBlocks_counted
    (manager.blocksOf requestId).reverse sound.counted
    (fun block _ => by
      have := occurrences_le manager requestId block
      rw [count_reverse]
      omega)
    (fun block real => by
      rw [count_reverse]
      exact sound.single requestId block real)
  simp only [Manager.free, result, Option.map_some, Option.some.injEq, Prod.mk.injEq] at freed
  obtain ⟨rfl, rfl⟩ := freed
  refine ⟨⟨same.hashed sound.hashed, ?_, ?_⟩, same.shape, rfl, rfl, rfl, rfl⟩
  · apply counted_congr final _ _ _ _ counted
    · intro block _
      have erased := total_erase (fun blocks => blocks.count block) manager.reqToBlocks requestId
      rw [blocksOf_measure] at erased
      change total (fun blocks => blocks.count block) (manager.reqToBlocks.erase requestId) +
        rest block = _
      rw [count_reverse, occurrences]
      omega
    · simp
  · intro other
    rw [same.shape.nullBlock]
    have table : Manager.blocksOf { manager with
        reqToBlocks := manager.reqToBlocks.erase requestId } other =
          if other = requestId then [] else manager.blocksOf other := by
      simp only [Manager.blocksOf, get?_erase]
      by_cases here : other = requestId
      · simp [here]
      · simp [here]
    change Single pool.nullBlock (Manager.blocksOf { manager with
        reqToBlocks := manager.reqToBlocks.erase requestId } other)
    rw [table]
    split
    · intro block _
      exact Nat.zero_le _
    · exact sound.single other

/-! Skipped blocks. -/

/-- Clearing one entry of a table takes its block out once. -/
theorem count_cleared {nullBlock block other : BlockId} {blocks : List BlockId} {index : Nat}
    (found : blocks[index]? = some block) (real : other ≠ nullBlock) :
    [block].count other + (blocks.set index nullBlock).count other = blocks.count other := by
  obtain ⟨inside, here⟩ := List.getElem?_eq_some_iff.mp found
  rw [count_set inside, here, count_one]
  have positive : 0 < blocks.count block := count_pos_iff.mpr (mem_of_getElem? found)
  by_cases same : other = block
  · subst same
    simp only [↓reduceIte, beq_self_eq_true, beq_iff_eq, Ne.symm real]
    omega
  · simp only [same, ↓reduceIte, beq_iff_eq, Ne.symm same, Ne.symm real]
    omega

/-- The removed blocks are the ones the table lost. -/
theorem skipLoop_count (nullBlock : BlockId) (numBlocks : Nat) (blocks : List BlockId)
    (block : BlockId) (real : block ≠ nullBlock) :
    (Manager.skipLoop nullBlock numBlocks blocks).1.count block +
        (Manager.skipLoop nullBlock numBlocks blocks).2.count block = blocks.count block := by
  induction numBlocks generalizing blocks with
  | zero => simp [Manager.skipLoop]
  | succ index ih =>
    unfold Manager.skipLoop
    cases entry : blocks[index]? with
    | none => simp
    | some skipped =>
      by_cases null : skipped = nullBlock
      · simp [null]
      · simp only [null, ↓reduceIte]
        have rest := ih (blocks.set index nullBlock)
        have cleared := count_cleared entry real
        have whole : (skipped :: (Manager.skipLoop nullBlock index
            (blocks.set index nullBlock)).1).count block = [skipped].count block +
              (Manager.skipLoop nullBlock index (blocks.set index nullBlock)).1.count block := by
          rw [← count_append]
          rfl
        omega

/-- Removed blocks are returned, and the table keeps the others. -/
theorem shed_sound {pool' : Pool Digest} {requestId : ReqId} {rest : BlockId → Nat}
    (sound : Sound pool manager rest) {removed blocks : List BlockId}
    (split : ∀ block, block ≠ pool.nullBlock →
      removed.count block + blocks.count block = (manager.blocksOf requestId).count block)
    (freed : pool.freeBlocks removed = some pool') :
    Sound pool' (manager.setBlocks requestId blocks) rest ∧ SameShape pool pool' := by
  have most (block : BlockId) :
      (manager.blocksOf requestId).count block ≤ occurrences manager block :=
    occurrences_le manager requestId block
  have once := sound.single requestId
  obtain ⟨final, result, same, counted⟩ := freeBlocks_counted removed sound.counted
    (fun block real => by
      have := split block real
      have := most block
      omega)
    (fun block real => by
      have := once block real
      have := split block real
      omega)
  obtain rfl : final = pool' := Option.some.inj (result.symm.trans freed)
  refine ⟨?_, same.shape⟩
  apply sound_setBlocks pool sound same.shape.nullBlock (same.hashed sound.hashed) counted
  · intro block real
    have := once block real
    have := split block real
    omega
  · intro block real
    have := split block real
    have := most block
    omega

theorem baseRemoveSkippedBlocks_sound {requestId : ReqId} {totalComputedTokens : Int}
    {rest : BlockId → Nat} (sound : Sound pool manager rest) {pool' : Pool Digest}
    {manager' : Manager Digest}
    (removed : manager.baseRemoveSkippedBlocks pool requestId totalComputedTokens =
      some (pool', manager')) :
    Sound pool' manager' rest ∧ SameShape pool pool' ∧ SameManager manager manager' := by
  unfold Manager.baseRemoveSkippedBlocks at removed
  simp only at removed
  split at removed
  · obtain ⟨rfl, rfl⟩ : pool = pool' ∧ manager = manager' := by simpa using removed
    exact ⟨sound, SameShape.refl pool, SameManager.refl manager⟩
  · generalize (min (manager.getNumSkippedTokens totalComputedTokens / manager.blockSize)
      ((manager.blocksOf requestId).length : Int)).toNat = numSkippedBlocks at removed
    obtain ⟨final, freed, same⟩ := Option.map_eq_some_iff.mp removed
    obtain ⟨rfl, rfl⟩ := Prod.mk.inj same
    obtain ⟨soundNow, shape⟩ := shed_sound manager pool sound
      (skipLoop_count pool.nullBlock numSkippedBlocks (manager.blocksOf requestId)) freed
    exact ⟨soundNow, shape, setBlocks_same manager requestId _⟩

/-- In the "align" cache mode the state of two steps ago goes too. -/
theorem freeLastStateBlock_sound {requestId : ReqId} (numComputedTokens : Int)
    {rest : BlockId → Nat} (sound : Sound pool manager rest) {pool' : Pool Digest}
    {manager' : Manager Digest}
    (removed : manager.freeLastStateBlock pool requestId numComputedTokens =
      some (pool', manager')) :
    Sound pool' manager' rest ∧ SameShape pool pool' ∧ SameManager manager manager' := by
  unfold Manager.freeLastStateBlock at removed
  split at removed
  · obtain ⟨rfl, rfl⟩ : pool = pool' ∧ manager = manager' := by simpa using removed
    exact ⟨sound, SameShape.refl pool, SameManager.refl manager⟩
  · split at removed
    · simp only at removed
      split at removed
      · contradiction
      · rename_i block found
        split at removed
        · obtain ⟨rfl, rfl⟩ : pool = pool' ∧ manager = manager' := by simpa using removed
          exact ⟨sound, SameShape.refl pool, SameManager.refl manager⟩
        · obtain ⟨final, freed, same⟩ := Option.map_eq_some_iff.mp removed
          obtain ⟨rfl, rfl⟩ := Prod.mk.inj same
          obtain ⟨soundNow, shape⟩ := shed_sound manager pool sound
            (fun other real =>
              count_cleared found real) freed
          rw [shape.nullBlock]
          exact ⟨soundNow, shape, setBlocks_same manager requestId _⟩
    · obtain ⟨rfl, rfl⟩ : pool = pool' ∧ manager = manager' := by simpa using removed
      exact ⟨sound, SameShape.refl pool, SameManager.refl manager⟩

theorem removeSkippedBlocks_sound {requestId : ReqId} {totalComputedTokens : Int}
    {rest : BlockId → Nat} (sound : Sound pool manager rest) {pool' : Pool Digest}
    {manager' : Manager Digest}
    (removed : manager.removeSkippedBlocks pool requestId totalComputedTokens =
      some (pool', manager')) :
    Sound pool' manager' rest ∧ SameShape pool pool' ∧ SameManager manager manager' := by
  unfold Manager.removeSkippedBlocks at removed
  split at removed
  · simp only at removed
    split at removed
    · contradiction
    · rename_i middle next base
      obtain ⟨soundNow, shape, same⟩ := baseRemoveSkippedBlocks_sound manager pool sound base
      split at removed
      · obtain ⟨soundLast, shapeLast, sameLast⟩ := freeLastStateBlock_sound next middle _ soundNow removed
        exact ⟨soundLast, shape.trans shapeLast, same.trans sameLast⟩
      · obtain ⟨rfl, rfl⟩ : middle = pool' ∧ next = manager' := by simpa using removed
        exact ⟨soundNow, shape, same⟩
  · exact baseRemoveSkippedBlocks_sound manager pool sound removed

/-! New blocks. -/

section
variable [DecidableEq Digest]

/-- Taken blocks are in no table, so appending them keeps every table single. -/
theorem append_sound {manager : Manager Digest} {pool : Pool Digest} {requestId : ReqId}
    {rest : BlockId → Nat} (sound : Sound pool manager rest) {numBlocks : Nat} {ids : List BlockId}
    {pool' : Pool Digest} (got : pool.getNewBlocks numBlocks = some (ids, pool')) :
    Sound pool' (manager.setBlocks requestId (manager.blocksOf requestId ++ ids)) rest ∧
      SameShape pool pool' := by
  obtain ⟨_, distinct, fresh, taken, hashed, counted⟩ :=
    getNewBlocks_taken sound.counted sound.hashed got
  refine ⟨?_, taken.shape⟩
  apply sound_setBlocks pool sound taken.shape.nullBlock hashed counted
  · intro block real
    have once := sound.single requestId block real
    have new := nodup_iff_count_le_one.mp distinct block
    rw [count_append]
    by_cases inIds : block ∈ ids
    · have unused := (fresh block inIds).2.2
      have := occurrences_le manager requestId block
      omega
    · rw [count_eq_zero.mpr inIds]
      exact once
  · intro block _
    rw [count_append]
    omega

theorem baseAllocateNewBlocks_sound {manager : Manager Digest} {pool : Pool Digest}
    {requestId : ReqId} (numTokens : Int) {rest : BlockId → Nat} (sound : Sound pool manager rest)
    {newBlocks : List BlockId} {pool' : Pool Digest} {manager' : Manager Digest}
    (allocated : manager.baseAllocateNewBlocks pool requestId numTokens =
      some (newBlocks, pool', manager')) :
    Sound pool' manager' rest ∧ SameShape pool pool' ∧ SameManager manager manager' := by
  unfold Manager.baseAllocateNewBlocks at allocated
  simp only at allocated
  split at allocated
  · obtain ⟨_, rfl, rfl⟩ := allocated
    refine ⟨?_, SameShape.refl pool, rfl, rfl, rfl, rfl⟩
    exact sound_setBlocks pool sound rfl sound.hashed sound.counted
      (sound.single requestId) fun _ _ => rfl
  · rw [Option.map_eq_some_iff] at allocated
    obtain ⟨⟨ids, final⟩, got, same⟩ := allocated
    obtain ⟨_, rfl, rfl⟩ := same
    have count : ((cdiv numTokens manager.blockSize -
        ((manager.blocksOf requestId).length : Int)).toNat : Int) =
          cdiv numTokens manager.blockSize - (manager.blocksOf requestId).length :=
      Int.toNat_of_nonneg (by omega)
    rw [← count] at got
    obtain ⟨soundNow, shape⟩ := append_sound sound got
    obtain ⟨tables, _, same⟩ := noteNewBlocks_frame
      (manager.setBlocks requestId (manager.blocksOf requestId ++ ids)) ids
    refine ⟨sound_frame final soundNow tables, shape, ?_⟩
    exact (setBlocks_same manager requestId _).trans same

end

/-! Computed blocks. -/

/-- The computed blocks of a group that a caller may hand in: blocks of the pool,
none twice, and no more than the local computed tokens fill when more tokens
follow. -/
structure Fits (pool : Pool Digest) (manager : Manager Digest) (blocks : List BlockId)
    (numLocalComputedTokens numExternalComputedTokens : Int) : Prop where
  valid : ∀ block ∈ blocks, block = pool.nullBlock ∨ block < pool.numGpuBlocks
  single : Single pool.nullBlock blocks
  computed : 0 < numExternalComputedTokens →
    (blocks.length : Int) * manager.blockSize ≤ numLocalComputedTokens

/-- The kinds of groups whose tables hold every referenced block, with the bounds
that their attention has. -/
def Managed : KVCacheSpec → Prop
  | .fullAttention _ | .mlaAttention _ | .chunkedLocalAttention _ | .crossAttention _ => True
  | .slidingWindow spec => 0 < spec.slidingWindow
  | .mamba spec => spec.mambaCacheMode ≠ .align
  | .sinkFullAttention _ => False

/-- A window has at least one token. -/
def Windowed : KVCacheSpec → Prop
  | .slidingWindow spec => 0 < spec.slidingWindow
  | _ => True

theorem Managed.windowed {spec : KVCacheSpec} (managed : Managed spec) : Windowed spec := by
  cases spec with
  | slidingWindow => exact managed
  | fullAttention | mlaAttention | chunkedLocalAttention | mamba | sinkFullAttention
  | crossAttention => trivial

theorem getNumSkippedTokens_le {manager : Manager Digest} (windowed : Windowed manager.kvCacheSpec)
    (numComputedTokens : Int) (positive : 0 ≤ numComputedTokens) :
    manager.getNumSkippedTokens numComputedTokens ≤ numComputedTokens := by
  unfold Manager.getNumSkippedTokens
  cases spec : manager.kvCacheSpec with
  | slidingWindow spec' =>
    simp only [spec, Windowed] at windowed
    simp only
    omega
  | chunkedLocalAttention spec' =>
    rcases Nat.eq_zero_or_pos spec'.attentionChunkSize with none | some
    · simpa [none] using positive
    · exact Int.ediv_mul_le _ (by omega)
  | mamba => simp only; omega
  | fullAttention | mlaAttention | sinkFullAttention | crossAttention => exact positive

/-- Skipped and computed blocks together fit into the blocks that are required. -/
theorem computed_le_required {manager : Manager Digest} (windowed : Windowed manager.kvCacheSpec)
    (positive : 0 < manager.blockSize) {numBlocks : Nat}
    (numLocalComputedTokens numExternalComputedTokens : Int) (external : 0 < numExternalComputedTokens)
    (computed : (numBlocks : Int) * manager.blockSize ≤ numLocalComputedTokens) :
    max (manager.getNumSkippedTokens (numLocalComputedTokens + numExternalComputedTokens) /
        manager.blockSize) (numBlocks : Int) ≤
      cdiv (numLocalComputedTokens + numExternalComputedTokens) manager.blockSize := by
  have nonneg : (0 : Int) ≤ (numBlocks : Int) * manager.blockSize :=
    Int.mul_nonneg (by omega) (by omega)
  have skipped := getNumSkippedTokens_le windowed
    (numLocalComputedTokens + numExternalComputedTokens) (by omega)
  apply max_le
  · have whole := Int.ediv_mul_le (manager.getNumSkippedTokens
      (numLocalComputedTokens + numExternalComputedTokens)) (b := (manager.blockSize : Int)) (by omega)
    by_contra more
    have less := (cdiv_le_iff positive).mp (Int.le_sub_one_of_lt (Int.lt_of_not_ge more))
    rw [Int.sub_mul] at less
    omega
  · by_contra more
    have less := (cdiv_le_iff positive).mp (Int.le_sub_one_of_lt (Int.lt_of_not_ge more))
    rw [Int.sub_mul] at less
    omega

/-- Shared blocks become the table of a request that has none yet. -/
theorem touch_sound {manager : Manager Digest} {pool : Pool Digest} {requestId : ReqId}
    {rest : BlockId → Nat} (sound : Sound pool manager rest)
    (empty : manager.blocksOf requestId = []) {blocks : List BlockId}
    (valid : ∀ block ∈ blocks, block = pool.nullBlock ∨ block < pool.numGpuBlocks)
    (single : Single pool.nullBlock blocks) (padding : Nat) {pool' : Pool Digest}
    (touched : pool.touch blocks = some pool') :
    Sound pool' (manager.setBlocks requestId (List.replicate padding pool.nullBlock ++ blocks)) rest ∧
      SameShape pool pool' := by
  obtain ⟨final, result, same, counted⟩ := touch_counted pool blocks _ sound.counted valid
  obtain rfl : final = pool' := Option.some.inj (result.symm.trans touched)
  have padded (block : BlockId) (real : block ≠ pool.nullBlock) :
      (replicate padding pool.nullBlock ++ blocks).count block = blocks.count block := by
    rw [count_append, count_replicate]
    simp [Ne.symm real]
  refine ⟨?_, same.shape⟩
  apply sound_setBlocks pool sound same.shape.nullBlock (same.hashed sound.hashed) counted
  · intro block real
    rw [padded block real]
    exact single block real
  · intro block real
    rw [padded block real, empty]
    simp

section
variable [DecidableEq Digest]

theorem addComputedBlocks_sound {manager : Manager Digest} {pool : Pool Digest} {requestId : ReqId}
    (windowed : Windowed manager.kvCacheSpec) (positive : 0 < manager.blockSize)
    {blocks : List BlockId} {numLocalComputedTokens numExternalComputedTokens : Int}
    {rest : BlockId → Nat} (sound : Sound pool manager rest)
    (empty : manager.blocksOf requestId = [])
    (fits : Fits pool manager blocks numLocalComputedTokens numExternalComputedTokens)
    {pool' : Pool Digest} {manager' : Manager Digest}
    (added : manager.addComputedBlocks pool requestId blocks numLocalComputedTokens
      numExternalComputedTokens = some (pool', manager')) :
    Sound pool' manager' rest ∧ SameShape pool pool' ∧ SameManager manager manager' := by
  unfold Manager.addComputedBlocks at added
  simp only at added
  let total := numLocalComputedTokens + numExternalComputedTokens
  let numSkippedBlocks := manager.getNumSkippedTokens total / manager.blockSize
  let kept := if decide (numSkippedBlocks > 0) = true then blocks.drop numSkippedBlocks.toNat
    else blocks
  have keptSuffix : kept = blocks.drop numSkippedBlocks.toNat := by
    by_cases skipped : numSkippedBlocks > 0
    · simp [kept, skipped]
    · have zero : numSkippedBlocks.toNat = 0 := by omega
      simp [kept, skipped, zero]
  have keptLength : kept.length = blocks.length - numSkippedBlocks.toNat := by
    rw [keptSuffix, length_drop]
  have keptFits : (∀ block ∈ kept, block = pool.nullBlock ∨ block < pool.numGpuBlocks) ∧
      Single pool.nullBlock kept := by
    rw [keptSuffix]
    constructor
    · exact fun block member => fits.valid block (mem_of_mem_drop member)
    · intro block real
      exact Nat.le_trans ((drop_sublist _ _).count_le block) (fits.single block real)
  split at added
  · contradiction
  · rename_i final touched
    have touchedKept : pool.touch kept = some final := by
      by_cases caching : manager.enableCaching = true
      · rw [if_pos caching] at touched
        exact touched
      · rw [if_neg caching] at touched
        change (if kept.isEmpty = true then _ else _) = _ at touched
        split at touched
        · rename_i none
          rw [List.isEmpty_iff.mp none]
          exact touched
        · contradiction
    obtain ⟨soundNow, shape⟩ := touch_sound sound empty keptFits.1
      keptFits.2 numSkippedBlocks.toNat touchedKept
    let table := replicate numSkippedBlocks.toNat final.nullBlock ++ kept
    rw [← shape.nullBlock] at soundNow
    have tableLength : (table.length : Int) = max numSkippedBlocks (blocks.length : Int) := by
      simp only [table, length_append, length_replicate, keptLength]
      omega
    let recorded : Manager Digest :=
      { manager.setBlocks requestId table with
        numCachedBlock := manager.numCachedBlock.set requestId table.length }
    have soundRecorded : Sound final recorded rest := sound_frame final soundNow rfl
    have same : SameManager manager recorded := ⟨rfl, rfl, rfl, rfl⟩
    let remaining : Int :=
      if decide (numSkippedBlocks > 0) = true then
        min (total - manager.getNumSkippedTokens total) numExternalComputedTokens
      else numExternalComputedTokens
    by_cases external : remaining > 0
    · rw [if_pos external] at added
      have enough := computed_le_required windowed positive
        numLocalComputedTokens numExternalComputedTokens (by omega) (fits.computed (by omega))
      rw [Option.map_eq_some_iff] at added
      obtain ⟨⟨ids, allocated⟩, got, result⟩ := added
      obtain ⟨rfl, rfl⟩ := result
      change final.getNewBlocks (cdiv total manager.blockSize - (table.length : Int)) = _ at got
      have count : ((cdiv total manager.blockSize - (table.length : Int)).toNat : Int) =
          cdiv total manager.blockSize - table.length := by
        have : max numSkippedBlocks (blocks.length : Int) ≤ cdiv total manager.blockSize := enough
        omega
      rw [← count] at got
      obtain ⟨soundLast, shapeLast⟩ := append_sound soundRecorded got
      have tableNow : recorded.blocksOf requestId = table := by
        have := blocksOf_set manager requestId requestId table
        rw [if_pos rfl] at this
        exact this
      rw [tableNow] at soundLast
      obtain ⟨tables, _, noted⟩ := noteNewBlocks_frame (recorded.setBlocks requestId (table ++ ids)) ids
      refine ⟨sound_frame allocated soundLast tables, shape.trans shapeLast, ?_⟩
      exact (same.trans (setBlocks_same recorded requestId (table ++ ids))).trans noted
    · rw [if_neg external, Option.some.injEq] at added
      obtain ⟨rfl, rfl⟩ := Prod.mk.inj added
      exact ⟨soundRecorded, shape, same⟩

theorem allocateNewComputedBlocks_sound {manager : Manager Digest} {pool : Pool Digest}
    {requestId : ReqId} (windowed : Windowed manager.kvCacheSpec) (positive : 0 < manager.blockSize)
    {blocks : List BlockId} {numLocalComputedTokens numExternalComputedTokens : Int}
    {rest : BlockId → Nat} (sound : Sound pool manager rest)
    (fits : Fits pool manager blocks numLocalComputedTokens numExternalComputedTokens)
    {pool' : Pool Digest} {manager' : Manager Digest}
    (added : manager.allocateNewComputedBlocks pool requestId blocks numLocalComputedTokens
      numExternalComputedTokens = some (pool', manager')) :
    Sound pool' manager' rest ∧ SameShape pool pool' ∧ SameManager manager manager' := by
  unfold Manager.allocateNewComputedBlocks at added
  split at added
  · split at added
    · obtain ⟨rfl, rfl⟩ : pool = pool' ∧ manager = manager' := by simpa using added
      exact ⟨sound, SameShape.refl pool, SameManager.refl manager⟩
    · contradiction
  · split at added
    · split at added
      · obtain ⟨rfl, rfl⟩ : pool = pool' ∧ manager = manager' := by simpa using added
        exact ⟨sound, SameShape.refl pool, SameManager.refl manager⟩
      · contradiction
    · split at added
      · rename_i empty
        exact addComputedBlocks_sound windowed positive sound (List.isEmpty_iff.mp empty) fits added
      · contradiction

/-! Caching. -/

theorem baseCacheBlocks_sound {manager : Manager Digest} {pool : Pool Digest}
    {request : Request Digest} {numTokens : Int} {rest : BlockId → Nat}
    (sound : Sound pool manager rest) {pool' : Pool Digest} {manager' : Manager Digest}
    (cached : manager.baseCacheBlocks pool request numTokens = some (pool', manager')) :
    Sound pool' manager' rest ∧ SameShape pool pool' ∧ SameManager manager manager' := by
  unfold Manager.baseCacheBlocks at cached
  simp only at cached
  split at cached
  · obtain ⟨rfl, rfl⟩ : pool = pool' ∧ manager = manager' := by simpa using cached
    exact ⟨sound, SameShape.refl pool, SameManager.refl manager⟩
  · rw [Option.map_eq_some_iff] at cached
    obtain ⟨final, result, same⟩ := cached
    obtain ⟨rfl, rfl⟩ := Prod.mk.inj same
    obtain ⟨hashed, counts, _⟩ := cacheFullBlocks_hashed _ sound.hashed
      (table_valid pool sound) result
    refine ⟨?_, counts.shape, rfl, rfl, rfl, rfl⟩
    have kept : Sound final (manager.setBlocks request.requestId
        (manager.blocksOf request.requestId)) rest := by
      apply sound_setBlocks pool sound counts.shape.nullBlock
        hashed (sameCounts_counted counts sound.counted) (sound.single request.requestId)
      exact fun _ _ => rfl
    exact sound_frame final kept rfl

theorem cacheBlocks_sound {manager : Manager Digest} {pool : Pool Digest}
    {request : Request Digest} {numTokens : Int} {rest : BlockId → Nat}
    (sound : Sound pool manager rest) {pool' : Pool Digest} {manager' : Manager Digest}
    (cached : manager.cacheBlocks pool request numTokens = some (pool', manager')) :
    Sound pool' manager' rest ∧ SameShape pool pool' ∧ SameManager manager manager' := by
  unfold Manager.cacheBlocks at cached
  split at cached
  · contradiction
  · rw [Option.map_eq_some_iff] at cached
    obtain ⟨⟨final, next⟩, result, same⟩ := cached
    obtain ⟨rfl, rfl⟩ := Prod.mk.inj same
    obtain ⟨soundNow, shape, keeps⟩ := baseCacheBlocks_sound sound result
    exact ⟨sound_frame final soundNow rfl, shape, keeps.kvCacheSpec, keeps.blockSize,
      keeps.enableCaching, keeps.kvCacheGroupId⟩
  · exact baseCacheBlocks_sound sound cached

end

end VllmDcu.TableAccounts

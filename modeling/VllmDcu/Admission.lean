import VllmDcu.LoneRequest

/-! A request alone in the cache, step by step: its tables cover the computed
tokens, with null blocks for what the attention has left behind, and a call of
`allocate_slots` finds its blocks exactly when the free blocks suffice. -/
namespace VllmDcu.Admission
open Requests FreeBlockQueue BlockPool KVCacheInterface MathUtils SingleTypeManager CacheManager
open PoolCache PoolAccounts TableAccounts PoolInvariant LoneRequest List Option

variable {Digest : Type}

/-- The groups of attention over a prefix or a window of it. -/
def Attends : KVCacheSpec → Prop
  | .fullAttention _ | .mlaAttention _ => True
  | .slidingWindow spec => 0 < spec.slidingWindow
  | .chunkedLocalAttention spec => 0 < spec.attentionChunkSize
  | .sinkFullAttention _ | .mamba _ | .crossAttention _ => False

/-- The tokens that no later token of the request attends to. -/
def skippedTokens (spec : KVCacheSpec) (numComputedTokens : Nat) : Nat :=
  match spec with
  | .slidingWindow spec => numComputedTokens + 1 - spec.slidingWindow
  | .chunkedLocalAttention spec =>
    numComputedTokens / spec.attentionChunkSize * spec.attentionChunkSize
  | _ => 0

def skippedBlocks (spec : KVCacheSpec) (numComputedTokens : Nat) : Nat :=
  skippedTokens spec numComputedTokens / spec.blockSize

def requiredBlocks (spec : KVCacheSpec) (numTokens : Nat) : Nat :=
  (numTokens + spec.blockSize - 1) / spec.blockSize

variable (spec : KVCacheSpec)

theorem cdiv_eq_required {numTokens : Nat} (positive : 0 < spec.blockSize) :
    cdiv numTokens spec.blockSize = requiredBlocks spec numTokens := by
  apply le_antisymm
  · rw [cdiv_le_iff positive]
    have whole := Nat.div_add_mod (numTokens + spec.blockSize - 1) spec.blockSize
    have less := Nat.mod_lt (numTokens + spec.blockSize - 1) positive
    rw [Nat.mul_comm] at whole
    unfold requiredBlocks
    omega
  · by_contra more
    have less := (cdiv_le_iff positive).mp (Int.le_sub_one_of_lt (Int.lt_of_not_ge more))
    have most := Nat.div_mul_le_self (numTokens + spec.blockSize - 1) spec.blockSize
    unfold requiredBlocks at less
    rw [Int.sub_mul] at less
    omega

theorem getNumSkippedTokens_eq (manager : Manager Digest) (attends : Attends manager.kvCacheSpec)
    (numComputedTokens : Nat) :
    manager.getNumSkippedTokens numComputedTokens =
      skippedTokens manager.kvCacheSpec numComputedTokens := by
  unfold Manager.getNumSkippedTokens skippedTokens
  cases spec : manager.kvCacheSpec with
  | slidingWindow spec => simp only; omega
  | chunkedLocalAttention spec => simp only; push_cast; rfl
  | mamba | sinkFullAttention | crossAttention =>
    rw [spec] at attends
    exact attends.elim
  | fullAttention | mlaAttention => rfl

theorem skippedTokens_le (attends : Attends spec) (numComputedTokens : Nat) :
    skippedTokens spec numComputedTokens ≤ numComputedTokens := by
  unfold skippedTokens
  cases spec with
  | slidingWindow spec =>
    have : 0 < spec.slidingWindow := attends
    simp only
    omega
  | chunkedLocalAttention spec => exact Nat.div_mul_le_self _ _
  | fullAttention | mlaAttention | sinkFullAttention | mamba | crossAttention => exact Nat.zero_le _

variable (few many : Nat)

theorem skippedTokens_mono (grows : few ≤ many) :
    skippedTokens spec few ≤ skippedTokens spec many := by
  unfold skippedTokens
  cases spec with
  | slidingWindow spec => simp only; omega
  | chunkedLocalAttention spec =>
    exact Nat.mul_le_mul_right _ (Nat.div_le_div_right grows)
  | fullAttention | mlaAttention | sinkFullAttention | mamba | crossAttention => exact Nat.le_refl _

theorem skippedBlocks_mono (grows : few ≤ many) :
    skippedBlocks spec few ≤ skippedBlocks spec many :=
  Nat.div_le_div_right (skippedTokens_mono spec few many grows)

theorem requiredBlocks_mono (grows : few ≤ many) :
    requiredBlocks spec few ≤ requiredBlocks spec many := by
  apply Nat.div_le_div_right
  omega

theorem skipped_le_required (attends : Attends spec) (positive : 0 < spec.blockSize)
    (numComputedTokens : Nat) :
    skippedBlocks spec numComputedTokens ≤ requiredBlocks spec numComputedTokens := by
  apply Nat.div_le_div_right
  have := skippedTokens_le spec attends numComputedTokens
  omega

theorem full_le_required (positive : 0 < spec.blockSize) (numTokens : Nat) :
    numTokens / spec.blockSize ≤ requiredBlocks spec numTokens := by
  apply Nat.div_le_div_right
  omega

/-! The table of one group. -/

/-- The blocks that were skipped are null, the others are held. -/
def Covers (nullBlock : BlockId) (table : List BlockId) (skipped length : Nat) : Prop :=
  ∃ held, table = List.replicate skipped nullBlock ++ held ∧ nullBlock ∉ held ∧
    skipped + held.length = length

variable (nullBlock : BlockId)

theorem covers_length {table : List BlockId} {skipped length : Nat}
    (covers : Covers nullBlock table skipped length) : table.length = length := by
  obtain ⟨held, rfl, _, total⟩ := covers
  simpa using total

theorem covers_live (table : List BlockId) (skipped length : Nat)
    (covers : Covers nullBlock table skipped length) :
    (table.filter fun block => decide (block ≠ nullBlock)).length + skipped = length := by
  obtain ⟨held, rfl, real, total⟩ := covers
  have kept : held.filter (fun block => decide (block ≠ nullBlock)) = held := by
    apply filter_eq_self.mpr
    intro block member
    have differs : block ≠ nullBlock := fun same => real (same ▸ member)
    simpa using differs
  have gone : (replicate skipped nullBlock).filter
      (fun block => decide (block ≠ nullBlock)) = [] := by
    simp
  rw [filter_append, kept, gone]
  simp only [nil_append]
  omega

/-- From the last skipped block down, the loop clears every held block. -/
theorem skipLoop_held (skipped : Nat) (newly held : List BlockId) (real : nullBlock ∉ newly) :
    Manager.skipLoop nullBlock (skipped + newly.length)
        (List.replicate skipped nullBlock ++ newly ++ held) =
      (newly.reverse, List.replicate (skipped + newly.length) nullBlock ++ held) := by
  induction newly using reverseRecOn generalizing held with
  | nil =>
    cases skipped with
    | zero => rfl
    | succ skipped =>
      have last : (replicate (skipped + 1) nullBlock ++ held)[skipped]? = some nullBlock := by
        simp [getElem?_append]
      simp only [length_nil, Nat.add_zero, append_nil, reverse_nil,
        Manager.skipLoop, last, ↓reduceIte]
  | append_singleton newly block ih =>
    have inside : block ≠ nullBlock := fun same => real (by simp [same])
    have length : (replicate skipped nullBlock ++ newly).length = skipped + newly.length := by
      simp
    have table : replicate skipped nullBlock ++ (newly ++ [block]) ++ held =
        (replicate skipped nullBlock ++ newly) ++ block :: held := by
      simp
    have entry : ((replicate skipped nullBlock ++ newly) ++ block :: held)[skipped +
        newly.length]? = some block := by
      rw [getElem?_append_right (by omega), length, Nat.sub_self]
      rfl
    have cleared : ((replicate skipped nullBlock ++ newly) ++ block :: held).set
        (skipped + newly.length) nullBlock =
          replicate skipped nullBlock ++ newly ++ (nullBlock :: held) := by
      rw [set_append_right _ _ (by omega), length, Nat.sub_self]
      rfl
    have rest := ih (nullBlock :: held) fun member => real (mem_append_left _ member)
    rw [length_append, length_singleton, ← Nat.add_assoc, table]
    simp only [Manager.skipLoop, entry, inside, ↓reduceIte, cleared, rest]
    rw [reverse_append, reverse_singleton, singleton_append,
      replicate_succ', append_assoc, singleton_append]

/-! The turn of one manager. -/

variable (caching : Bool) (requestId : ReqId) (pool : Pool Digest)

/-- The table of the request is replaced; its other parts stay. -/
theorem seated_setBlocks {pool' : Pool Digest} {manager : Manager Digest} {rest : BlockId → Nat}
    {table : List BlockId} (seated : Seated caching requestId pool manager rest)
    (null : pool'.nullBlock = pool.nullBlock)
    (sound : Sound pool' (manager.setBlocks requestId table) rest)
    (exclusive : ∀ block, block ≠ pool.nullBlock → table.count block + rest block ≤ 1)
    (unhashed : caching = true → ∀ index block,
      (manager.numCachedBlock.get? requestId).getD 0 ≤ index → table[index]? = some block →
        block ≠ pool.nullBlock → (pool'.blocks block).blockHash = none) :
    Seated caching requestId pool' (manager.setBlocks requestId table) rest := by
  have counts (block : BlockId) :
      occurrences (manager.setBlocks requestId table) block = table.count block := by
    have := occurrences_set manager requestId table block
    have := seated.lone block
    omega
  constructor
  · exact sound
  · intro block real
    simp only [counts block]
    exact exclusive block (null ▸ real)
  · intro block
    rw [counts block, blocksOf_set, if_pos rfl]
  · intro on index block cached entry real
    rw [blocksOf_set, if_pos rfl] at entry
    exact unhashed on index block cached entry (null ▸ real)

/-- Only the tables and the cached counts matter. -/
theorem seated_frame (manager manager' : Manager Digest) (rest : BlockId → Nat)
    (seated : Seated caching requestId pool manager rest)
    (tables : manager'.reqToBlocks = manager.reqToBlocks)
    (cached : manager'.numCachedBlock = manager.numCachedBlock) :
    Seated caching requestId pool manager' rest := by
  constructor
  · exact sound_frame pool seated.sound tables
  · rw [occurrences_frame tables]
    exact seated.exclusive
  · rw [Lone, occurrences_frame tables, blocksOf_frame tables]
    exact seated.lone
  · rw [Unhashed, blocksOf_frame tables, cached]
    exact seated.unhashed

theorem skipped_count {block : BlockId} (skipped : Nat) (newly held : List BlockId)
    (real : block ≠ nullBlock) :
    (List.replicate skipped nullBlock ++ newly ++ held).count block =
      newly.count block + held.count block := by
  rw [count_append, count_append, count_replicate]
  simp [Ne.symm real]

theorem skip_turn {manager : Manager Digest} {rest : BlockId → Nat} {skipped : Nat}
    {newly held : List BlockId}
    (table : manager.blocksOf requestId = List.replicate skipped pool.nullBlock ++ newly ++ held)
    (seated : Seated caching requestId pool manager rest) :
    ∃ pool', pool.freeBlocks newly.reverse = some pool' ∧
      Turn caching requestId pool pool' manager
        (manager.setBlocks requestId
          (List.replicate (skipped + newly.length) pool.nullBlock ++ held)) rest := by
  let kept := replicate (skipped + newly.length) pool.nullBlock ++ held
  have lost (block : BlockId) (isReal : block ≠ pool.nullBlock) :
      newly.count block + kept.count block = (manager.blocksOf requestId).count block := by
    have split := skipped_count pool.nullBlock (skipped + newly.length) [] held isReal
    rw [append_nil, count_nil, Nat.zero_add] at split
    rw [table, skipped_count pool.nullBlock skipped newly held isReal, split]
  have most := occurrences_le manager requestId
  have once := seated.sound.single requestId
  obtain ⟨pool', freed, same, counted⟩ := freeBlocks_counted newly.reverse seated.sound.counted
    (fun block isReal => by
      have := lost block isReal
      have := most block
      rw [count_reverse]
      omega)
    (fun block isReal => by
      have := lost block isReal
      have : (manager.blocksOf requestId).count block ≤ 1 := once block isReal
      rw [count_reverse]
      omega)
  have sound : Sound pool' (manager.setBlocks requestId kept) rest := by
    apply sound_setBlocks pool seated.sound
      same.shape.nullBlock (same.hashed seated.sound.hashed) counted
    · intro block isReal
      have := lost block isReal
      have : (manager.blocksOf requestId).count block ≤ 1 := once block isReal
      omega
    · intro block isReal
      have := lost block isReal
      have := most block
      rw [count_reverse]
      omega
  refine ⟨pool', freed, ?_, same.shape, setBlocks_same manager requestId kept, ?_⟩
  · apply seated_setBlocks caching requestId pool seated
      same.shape.nullBlock sound
    · intro block isReal
      have := lost block isReal
      have whole := seated.exclusive block isReal
      have := seated.lone block
      simp only at whole
      omega
    · intro on index block cached entry isReal
      rw [same.hashes block]
      apply seated.unhashed on index block cached _ isReal
      -- the held blocks stand where they stood
      have inHeld : skipped + newly.length ≤ index := by
        by_contra early
        rw [getElem?_append_left (by simp; omega), getElem?_replicate, if_pos (by omega)] at entry
        exact isReal (some.inj entry).symm
      rw [getElem?_append_right (by simp; omega)] at entry
      rw [table, getElem?_append_right (by simp; omega)]
      simpa using entry
  · intro _ block _ _ none
    rw [same.hashes block]
    exact none

/-- Before its turn a manager may still hold blocks that are skipped by now. -/
def Behind (nullBlock : BlockId) (requestId : ReqId) (numComputedTokens : Nat)
    (manager : Manager Digest) : Prop :=
  Attends manager.kvCacheSpec ∧ 0 < manager.blockSize ∧
    manager.blockSize = manager.kvCacheSpec.blockSize ∧
      ∃ skipped ≤ skippedBlocks manager.kvCacheSpec numComputedTokens,
        Covers nullBlock (manager.blocksOf requestId) skipped
          (requiredBlocks manager.kvCacheSpec numComputedTokens)

/-- The table for `numTokens` tokens of which the ones that the attention at
`numComputedTokens` has left behind are skipped. -/
def Holding (nullBlock : BlockId) (requestId : ReqId) (numComputedTokens numTokens : Nat)
    (manager : Manager Digest) : Prop :=
  Attends manager.kvCacheSpec ∧ 0 < manager.blockSize ∧
    manager.blockSize = manager.kvCacheSpec.blockSize ∧
      Covers nullBlock (manager.blocksOf requestId)
        (skippedBlocks manager.kvCacheSpec numComputedTokens)
        (requiredBlocks manager.kvCacheSpec numTokens)

theorem removeSkippedBlocks_base (manager : Manager Digest) (attends : Attends manager.kvCacheSpec)
    (pool : Pool Digest) (requestId : ReqId) (totalComputedTokens : Int) :
    manager.removeSkippedBlocks pool requestId totalComputedTokens =
      manager.baseRemoveSkippedBlocks pool requestId totalComputedTokens := by
  unfold Manager.removeSkippedBlocks
  split
  · rename_i spec kind
    rw [kind] at attends
    exact attends.elim
  · rfl

theorem turn_refl {manager : Manager Digest} {rest : BlockId → Nat}
    (seated : Seated caching requestId pool manager rest) :
    Turn caching requestId pool pool manager manager rest :=
  ⟨seated, SameShape.refl pool, SameManager.refl manager, fun _ _ _ _ none => none⟩

theorem removeSkipped_turn {manager : Manager Digest} {rest : BlockId → Nat}
    {numComputedTokens : Nat} (behind : Behind pool.nullBlock requestId numComputedTokens manager)
    (seated : Seated caching requestId pool manager rest) :
    ∃ pool' manager', manager.removeSkippedBlocks pool requestId numComputedTokens =
        some (pool', manager') ∧
      Turn caching requestId pool pool' manager manager' rest ∧
        Holding pool.nullBlock requestId numComputedTokens numComputedTokens manager' := by
  obtain ⟨attends, positive, size, skipped, most, covers⟩ := behind
  have total := covers_length pool.nullBlock covers
  have fits := skipped_le_required manager.kvCacheSpec attends (size ▸ positive) numComputedTokens
  rw [removeSkippedBlocks_base manager attends, Manager.baseRemoveSkippedBlocks]
  simp only [getNumSkippedTokens_eq manager attends]
  by_cases none : (skippedTokens manager.kvCacheSpec numComputedTokens : Int) ≤ 0
  · have zero : skippedBlocks manager.kvCacheSpec numComputedTokens = 0 := by
      have : skippedTokens manager.kvCacheSpec numComputedTokens = 0 := by omega
      rw [skippedBlocks, this, Nat.zero_div]
    obtain rfl : skipped = 0 := by omega
    rw [if_pos none]
    refine ⟨pool, manager, rfl, turn_refl caching requestId pool seated, ?_⟩
    exact ⟨attends, positive, size, zero ▸ covers⟩
  · obtain ⟨held, table, real, length⟩ := covers
    let numNew := skippedBlocks manager.kvCacheSpec numComputedTokens - skipped
    have split : held = held.take numNew ++ held.drop numNew := (take_append_drop _ _).symm
    have newLength : (held.take numNew).length = numNew := by
      rw [length_take]
      omega
    have upTo : skipped + (held.take numNew).length =
        skippedBlocks manager.kvCacheSpec numComputedTokens := by omega
    have tableSplit : manager.blocksOf requestId =
        replicate skipped pool.nullBlock ++ held.take numNew ++ held.drop numNew := by
      rw [append_assoc, ← split]
      exact table
    have newReal : pool.nullBlock ∉ held.take numNew := fun member => real (mem_of_mem_take member)
    have count : (min ((skippedTokens manager.kvCacheSpec numComputedTokens : Int) /
        (manager.blockSize : Int)) ((manager.blocksOf requestId).length : Int)).toNat =
          skipped + (held.take numNew).length := by
      have whole : (skippedTokens manager.kvCacheSpec numComputedTokens : Int) /
          (manager.blockSize : Int) = skippedBlocks manager.kvCacheSpec numComputedTokens := by
        rw [size]
        exact (Int.natCast_div _ _).symm
      omega
    obtain ⟨pool', freed, turn⟩ := skip_turn caching requestId pool tableSplit seated
    have loop := skipLoop_held pool.nullBlock skipped (held.take numNew) (held.drop numNew) newReal
    rw [← tableSplit] at loop
    rw [if_neg none, count, loop]
    refine ⟨pool', _, by rw [freed]; rfl, turn, attends, positive, size, ?_⟩
    rw [blocksOf_set, if_pos rfl, upTo]
    refine ⟨held.drop numNew, rfl, fun member => real (mem_of_mem_drop member), ?_⟩
    rw [length_drop]
    change skippedBlocks manager.kvCacheSpec numComputedTokens + _ =
      requiredBlocks manager.kvCacheSpec numComputedTokens
    omega

section
variable [DecidableEq Digest]

theorem append_turn {caching : Bool} {requestId : ReqId} {pool : Pool Digest}
    {manager : Manager Digest} {rest : BlockId → Nat} (numBlocks : Nat)
    (cleared : caching = true → pool.enableCaching = true)
    (seated : Seated caching requestId pool manager rest)
    (enough : numBlocks ≤ pool.getNumFreeBlocks) :
    ∃ ids pool', pool.getNewBlocks numBlocks = some (ids, pool') ∧
      pool'.getNumFreeBlocks = pool.getNumFreeBlocks - numBlocks ∧ ids.length = numBlocks ∧
      pool.nullBlock ∉ ids ∧
      Turn caching requestId pool pool' manager
        (manager.setBlocks requestId (manager.blocksOf requestId ++ ids)) rest := by
  obtain ⟨ids, pool', got, left, length, distinct, fresh, taken, _, _⟩ :=
    getNewBlocks_some numBlocks seated.sound.counted seated.sound.hashed enough
  obtain ⟨sound, shape⟩ := append_sound seated.sound got
  have bare (on : caching = true) (block : BlockId) (none : (pool.blocks block).blockHash = none) :
      (pool'.blocks block).blockHash = Option.none := by
    by_cases inIds : block ∈ ids
    · exact taken.cleared (cleared on) block inIds
    · rw [taken.kept block inIds]
      exact none
  refine ⟨ids, pool', got, left, length, fun member => (fresh _ member).2.1 rfl, ?_, shape,
    setBlocks_same manager requestId _, ?_⟩
  · apply seated_setBlocks caching requestId pool seated shape.nullBlock sound
    · intro block real
      have whole := seated.exclusive block real
      have := seated.lone block
      have once := nodup_iff_count_le_one.mp distinct block
      simp only at whole
      rw [count_append]
      by_cases inIds : block ∈ ids
      · have := (fresh block inIds).2.2
        omega
      · rw [count_eq_zero.mpr inIds]
        omega
    · intro on index block cached entry real
      by_cases inIds : block ∈ ids
      · exact taken.cleared (cleared on) block inIds
      · apply bare on block
        apply seated.unhashed on index block cached _ real
        have inside : index < (manager.blocksOf requestId).length := by
          by_contra outside
          rw [getElem?_append_right (by omega)] at entry
          exact inIds (mem_of_getElem? entry)
        rwa [getElem?_append_left inside] at entry
  · exact fun on block _ _ none => bare on block none

theorem allocateNewBlocks_base (manager : Manager Digest) (attends : Attends manager.kvCacheSpec)
    (pool : Pool Digest) (requestId : ReqId) (numTokens numTokensMainModel : Int) :
    manager.allocateNewBlocks pool requestId numTokens numTokensMainModel =
      manager.baseAllocateNewBlocks pool requestId numTokens := by
  unfold Manager.allocateNewBlocks
  split
  · rename_i spec kind
    rw [kind] at attends
    exact attends.elim
  · rfl

/-- The blocks that a group must get for the new tokens of a step. -/
def missingBlocks (spec : KVCacheSpec) (numComputedTokens numTokens : Nat) : Nat :=
  requiredBlocks spec numTokens - requiredBlocks spec numComputedTokens

def Provides (numComputedTokens numTokens : Nat) (pool : Pool Digest)
    (managers : List (Manager Digest)) : Prop :=
  ((managers.map fun manager =>
    missingBlocks manager.kvCacheSpec numComputedTokens numTokens).sum : Nat) ≤
      pool.getNumFreeBlocks

omit [DecidableEq Digest] in
theorem covers_append {nullBlock : BlockId} {table ids : List BlockId} {skipped length : Nat}
    (covers : Covers nullBlock table skipped length) (real : nullBlock ∉ ids) :
    Covers nullBlock (table ++ ids) skipped (length + ids.length) := by
  obtain ⟨held, rfl, isReal, total⟩ := covers
  refine ⟨held ++ ids, by rw [append_assoc], ?_, ?_⟩
  · rw [mem_append, not_or]
    exact ⟨isReal, real⟩
  · rw [length_append]
    omega

theorem allocate_turn {caching : Bool} {requestId : ReqId} {pool : Pool Digest}
    {manager : Manager Digest} {todo : List (Manager Digest)} {rest : BlockId → Nat}
    {numComputedTokens numTokens : Nat} {numTokensMainModel : Int}
    (grows : numComputedTokens ≤ numTokens)
    (cleared : caching = true → pool.enableCaching = true)
    (holding : Holding pool.nullBlock requestId numComputedTokens numComputedTokens manager)
    (provided : Provides numComputedTokens numTokens pool (manager :: todo))
    (seated : Seated caching requestId pool manager rest) :
    ∃ ids pool' manager',
      manager.allocateNewBlocks pool requestId numTokens numTokensMainModel =
        some (ids, pool', manager') ∧
      Turn caching requestId pool pool' manager manager' rest ∧
        Holding pool.nullBlock requestId numComputedTokens numTokens manager' ∧
          Provides numComputedTokens numTokens pool' todo := by
  obtain ⟨attends, positive, size, covers⟩ := holding
  have total := covers_length pool.nullBlock covers
  have more := requiredBlocks_mono manager.kvCacheSpec numComputedTokens numTokens grows
  have required : cdiv numTokens manager.blockSize = requiredBlocks manager.kvCacheSpec numTokens := by
    rw [size]
    exact cdiv_eq_required manager.kvCacheSpec (size ▸ positive)
  let missing := missingBlocks manager.kvCacheSpec numComputedTokens numTokens
  have need : cdiv numTokens manager.blockSize - ((manager.blocksOf requestId).length : Int) =
      missing := by
    simp only [missing, missingBlocks]
    omega
  unfold Provides at provided
  rw [map_cons, sum_cons] at provided
  rw [allocateNewBlocks_base manager attends, Manager.baseAllocateNewBlocks]
  simp only [need]
  by_cases none : (missing : Int) ≤ 0
  · rw [if_pos none]
    have same : requiredBlocks manager.kvCacheSpec numTokens =
        requiredBlocks manager.kvCacheSpec numComputedTokens := by
      omega
    have sound := sound_setBlocks pool seated.sound rfl
      seated.sound.hashed seated.sound.counted (seated.sound.single requestId) fun _ _ => rfl
    refine ⟨[], pool, _, rfl, ⟨?_, SameShape.refl pool, setBlocks_same manager requestId _, ?_⟩, ?_, ?_⟩
    · apply seated_setBlocks caching requestId pool seated rfl sound
      · intro block real
        have whole := seated.exclusive block real
        have := seated.lone block
        simp only at whole
        omega
      · exact fun on => seated.unhashed on
    · exact fun _ _ _ _ none => none
    · refine ⟨attends, positive, size, ?_⟩
      rw [blocksOf_set, if_pos rfl]
      change Covers _ _ _ (requiredBlocks manager.kvCacheSpec numTokens)
      rw [same]
      exact covers
    · unfold Provides
      omega
  · rw [if_neg none]
    obtain ⟨ids, pool', got, left, length, real, turn⟩ := append_turn missing cleared seated (by omega)
    obtain ⟨tables, cached, noted⟩ := noteNewBlocks_frame
      (manager.setBlocks requestId (manager.blocksOf requestId ++ ids)) ids
    refine ⟨ids, pool', _, by rw [got]; rfl, ⟨?_, turn.shape, turn.same.trans noted, turn.bare⟩, ?_, ?_⟩
    · exact seated_frame caching requestId pool' _ _ rest turn.seated tables cached
    · rw [Holding, blocksOf_frame tables, noted.kvCacheSpec, noted.blockSize, blocksOf_set, if_pos rfl]
      refine ⟨attends, positive, size, ?_⟩
      have grown := covers_append covers real
      rw [length] at grown
      have sum : requiredBlocks manager.kvCacheSpec numComputedTokens + missing =
          requiredBlocks manager.kvCacheSpec numTokens := by
        omega
      rw [sum] at grown
      exact grown
    · unfold Provides
      omega

/-! Caching the full blocks. -/

theorem cacheLoop_some (groupId : Nat) (pool : Pool Digest) (blocks : List BlockId)
    (hashes : List (List Digest)) (enough : blocks.length ≤ hashes.length)
    (single : Single pool.nullBlock blocks)
    (bare : ∀ block ∈ blocks, block ≠ pool.nullBlock → (pool.blocks block).blockHash = none) :
    ∃ cached, pool.cacheLoop groupId blocks hashes = some cached := by
  induction blocks generalizing pool hashes with
  | nil => exact ⟨_, rfl⟩
  | cons block rest ih =>
    have singleRest : Single pool.nullBlock rest := fun other real =>
      Nat.le_trans ((sublist_cons_self block rest).count_le other) (single other real)
    cases hashes with
    | nil => simp at enough
    | cons hash hashes =>
      have shorter : rest.length ≤ hashes.length := by simpa using enough
      by_cases null : block = pool.nullBlock
      · obtain ⟨cached, result⟩ := ih pool hashes shorter singleRest
          fun other member => bare other (mem_cons_of_mem _ member)
        exact ⟨cached, by simp [Pool.cacheLoop, Pool.isNull, null, result]⟩
      · let next := { pool.setHash block (some (hash, groupId)) with
          cachedBlockHashToBlock := BlockHashToBlockMap.insert pool.cachedBlockHashToBlock
            (hash, groupId) block }
        have once := single block null
        rw [count_cons_self] at once
        have absent : block ∉ rest := by
          rw [← count_eq_zero]
          omega
        obtain ⟨⟨pool', others⟩, result⟩ := ih next hashes shorter singleRest (by
          intro other member real
          have differs : other ≠ block := fun same => absent (same ▸ member)
          rw [setHash_blockHash, if_neg differs]
          exact bare other (mem_cons_of_mem _ member) real)
        refine ⟨(pool', hash :: others), ?_⟩
        have unset := bare block mem_cons_self null
        simp only [Pool.cacheLoop, Pool.isNull, null, decide_false, Bool.false_eq_true,
          ↓reduceIte, unset]
        rw [result]
        rfl

omit [DecidableEq Digest] in
/-- A request has a hash for every full block of its tokens. -/
theorem enough_hashes {blockHashes : List Digest} {hashBlockSize blockSize numTokens numFull : Nat}
    (complete : blockHashes.length = numTokens / hashBlockSize) (positive : 0 < blockSize)
    (divides : blockSize % hashBlockSize = 0) (full : numFull ≤ numTokens / blockSize) :
    numFull ≤ blockHashes.length ∧
      numFull ≤ (hashesWithBlockSize blockHashes hashBlockSize blockSize).length := by
  have dvd : hashBlockSize ∣ blockSize := Nat.dvd_of_mod_eq_zero divides
  have some : 0 < hashBlockSize := Nat.pos_of_dvd_of_pos dvd positive
  have whole : hashBlockSize * (blockSize / hashBlockSize) = blockSize := Nat.mul_div_cancel' dvd
  have length : (hashesWithBlockSize blockHashes hashBlockSize blockSize).length =
      numTokens / blockSize := by
    rw [hashesWithBlockSize, length_map, length_range, complete, Nat.div_div_eq_div_mul, whole]
  have finer : numTokens / blockSize ≤ numTokens / hashBlockSize :=
    Nat.div_le_div_left (Nat.le_of_dvd positive dvd) some
  omega

theorem cacheFullBlocks_some {pool : Pool Digest} {request : Request Digest}
    {blocks : List BlockId} {numCached numFull blockSize groupId : Nat}
    (hashes : numFull ≤ request.blockHashes.length)
    (chained : numFull ≤
      (hashesWithBlockSize request.blockHashes pool.hashBlockSize blockSize).length)
    (divides : blockSize % pool.hashBlockSize = 0) (covered : numFull ≤ blocks.length)
    (single : Single pool.nullBlock blocks)
    (bare : ∀ block ∈ (blocks.take numFull).drop numCached, block ≠ pool.nullBlock →
      (pool.blocks block).blockHash = none) :
    ∃ pool', pool.cacheFullBlocks request blocks numCached numFull blockSize groupId =
      some pool' := by
  unfold Pool.cacheFullBlocks
  by_cases done : numCached ≥ numFull
  · exact ⟨pool, if_pos done⟩
  · have within : ((blocks.take numFull).drop numCached).Sublist blocks :=
      (drop_sublist _ _).trans (take_sublist _ _)
    obtain ⟨⟨cached, newHashes⟩, result⟩ := cacheLoop_some groupId pool
      ((blocks.take numFull).drop numCached)
      ((hashesWithBlockSize request.blockHashes pool.hashBlockSize blockSize).drop numCached)
      (by
        rw [length_drop, length_drop, length_take]
        omega)
      (fun block real => Nat.le_trans (within.count_le block) (single block real)) bare
    rw [if_neg done, if_neg (by omega), if_neg (by omega)]
    simp only [result]
    by_cases events : pool.enableKvCacheEvents = true
    · rw [if_pos events, Pool.blockStored, if_neg (by omega)]
      exact ⟨_, rfl⟩
    · rw [if_neg events]
      exact ⟨_, rfl⟩

theorem cacheBlocks_base (manager : Manager Digest) (attends : Attends manager.kvCacheSpec)
    (pool : Pool Digest) (request : Request Digest) (numTokens : Int) :
    manager.cacheBlocks pool request numTokens = manager.baseCacheBlocks pool request numTokens := by
  unfold Manager.cacheBlocks
  split
  · rename_i spec kind
    rw [kind] at attends
    exact attends.elim
  · rename_i spec kind
    rw [kind] at attends
    exact attends.elim
  · rfl

omit [DecidableEq Digest] in
/-- A held block stands at one place of its table. -/
theorem held_once {nullBlock : BlockId} {table : List BlockId} (single : Single nullBlock table)
    {block : BlockId} (real : block ≠ nullBlock) {bound index : Nat} (early : block ∈ table.take bound)
    (late : table[index]? = some block) : index < bound := by
  by_contra beyond
  have inDrop : block ∈ table.drop bound := by
    apply mem_of_getElem? (i := index - bound)
    rw [getElem?_drop, Nat.add_sub_cancel' (by omega)]
    exact late
  have once := single block real
  rw [← take_append_drop bound table, count_append] at once
  have := count_pos_iff.mpr early
  have := count_pos_iff.mpr inDrop
  omega

theorem cache_turn {request : Request Digest} {pool : Pool Digest} {manager : Manager Digest}
    {rest : BlockId → Nat} {numComputedTokens numTokens : Nat}
    (known : numTokens ≤ request.numTokens)
    (complete : request.blockHashes.length = request.numTokens / pool.hashBlockSize)
    (divides : manager.blockSize % pool.hashBlockSize = 0)
    (holding : Holding pool.nullBlock request.requestId numComputedTokens numTokens manager)
    (seated : Seated true request.requestId pool manager rest) :
    ∃ pool' manager', manager.cacheBlocks pool request numTokens = some (pool', manager') ∧
      Turn true request.requestId pool pool' manager manager' rest ∧
        Holding pool.nullBlock request.requestId numComputedTokens numTokens manager' := by
  obtain ⟨attends, positive, size, covers⟩ := holding
  let requestId := request.requestId
  let table := manager.blocksOf requestId
  let numCached := (manager.numCachedBlock.get? requestId).getD 0
  let numFull := numTokens / manager.blockSize
  have total : table.length = requiredBlocks manager.kvCacheSpec numTokens :=
    covers_length pool.nullBlock covers
  have count : (numTokens : Int) / (manager.blockSize : Int) = numFull := (Int.natCast_div _ _).symm
  rw [cacheBlocks_base manager attends]
  by_cases done : (numCached : Int) ≥ numFull
  · exact ⟨pool, manager, if_pos done, turn_refl true requestId pool seated, attends,
      positive, size, covers⟩
  · obtain ⟨hashes, chained⟩ := enough_hashes complete positive divides
      (Nat.div_le_div_right known)
    have bareFull : ∀ block ∈ (table.take numFull).drop numCached, block ≠ pool.nullBlock →
        (pool.blocks block).blockHash = none := by
      intro block member real
      obtain ⟨index, entry⟩ := mem_iff_getElem?.mp member
      rw [getElem?_drop] at entry
      rw [getElem?_take] at entry
      split at entry
      · exact seated.unhashed rfl (numCached + index) block (Nat.le_add_right _ _) entry real
      · contradiction
    have single := seated.sound.single requestId
    have covered : numFull ≤ table.length := by
      rw [total]
      simp only [numFull, size]
      exact full_le_required manager.kvCacheSpec (size ▸ positive) numTokens
    obtain ⟨pool', cached⟩ := cacheFullBlocks_some hashes chained divides covered single bareFull
    obtain ⟨_, counts, rehashed⟩ := cacheFullBlocks_hashed table seated.sound.hashed
      (table_valid pool seated.sound) cached
    let manager' : Manager Digest :=
      { manager.setBlocks requestId table with
        numCachedBlock := manager.numCachedBlock.set requestId numFull }
    have result : manager.baseCacheBlocks pool request numTokens = some (pool', manager') := by
      rw [Manager.baseCacheBlocks]
      simp only [count]
      rw [if_neg done, Int.toNat_natCast, cached]
      rfl
    obtain ⟨sound, shape, same⟩ := baseCacheBlocks_sound seated.sound result
    have sameTable : manager'.blocksOf requestId = table := by
      have set := blocksOf_set manager requestId requestId table
      rw [if_pos rfl] at set
      exact set
    have sameCount : occurrences manager' = occurrences manager := by
      funext block
      have set := occurrences_set manager requestId table block
      change occurrences manager' block + table.count block = _ at set
      omega
    refine ⟨pool', manager', result, ⟨⟨sound, ?_, ?_, ?_⟩, shape, same, ?_⟩, attends, positive, size, ?_⟩
    · rw [sameCount]
      intro block real
      exact seated.exclusive block (shape.nullBlock ▸ real)
    · rw [Lone, sameCount, sameTable]
      exact seated.lone
    · intro _ index block beyond entry real
      have counted : (manager'.numCachedBlock.get? requestId).getD 0 = numFull := by
        simp [manager']
      change (manager'.numCachedBlock.get? requestId).getD 0 ≤ index at beyond
      rw [sameTable] at entry
      rw [shape.nullBlock] at real
      rcases rehashed block with kept | ⟨_, _, early, hash, inFull, _, _⟩
      · rw [kept]
        have past : numCached ≤ index := by omega
        exact seated.unhashed rfl index block past entry real
      · -- a block that was cached now stands before the full ones end
        have inTake := mem_of_mem_drop (mem_of_getElem? inFull)
        have := held_once single real inTake entry
        omega
    · intro _ block real unused none
      rcases rehashed block with kept | ⟨_, _, early, hash, inFull, _, _⟩
      · rw [kept]
        exact none
      · have inTable := mem_of_mem_take (mem_of_mem_drop (mem_of_getElem? inFull))
        have here := count_pos_iff.mpr inTable
        have most := occurrences_le manager requestId block
        change table.count block ≤ _ at most
        omega
    · rw [sameTable]
      exact covers

end
end VllmDcu.Admission

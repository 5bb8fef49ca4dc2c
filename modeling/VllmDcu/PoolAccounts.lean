import VllmDcu.PoolCache

/-! The accounts of the block pool: every reference count is the number of
references, and every block without any is in the free queue. Each operation of
the pool is stated by what it does to the accounts. -/
namespace VllmDcu.PoolAccounts
open Requests FreeBlockQueue BlockPool PoolCache List Option

variable {Digest : Type}

/-- `refs` counts the references to every block but the null block, and the free
queue has the unreferenced ones, except those that are `out` for the moment. -/
structure Counted (pool : Pool Digest) (refs : BlockId → Nat) (out : BlockId → Prop) : Prop where
  queue : ∃ free, Holds pool.freeBlockQueue free ∧ ∀ block, block ∈ free ↔
    block < pool.numGpuBlocks ∧ block ≠ pool.nullBlock ∧ refs block = 0 ∧ ¬ out block
  counts : ∀ block, block ≠ pool.nullBlock → (pool.blocks block).refCnt = refs block
  inside : ∀ block, block ≠ pool.nullBlock → 0 < refs block → block < pool.numGpuBlocks

variable (pool : Pool Digest) (refs : BlockId → Nat)

theorem counted_congr (refs' : BlockId → Nat) (out out' : BlockId → Prop)
    (counted : Counted pool refs out)
    (sameRefs : ∀ block, block ≠ pool.nullBlock → refs' block = refs block)
    (sameOut : ∀ block, block ≠ pool.nullBlock → (out' block ↔ out block)) :
    Counted pool refs' out' := by
  obtain ⟨free, holds, mem⟩ := counted.queue
  constructor
  · refine ⟨free, holds, fun block => ?_⟩
    rw [mem block]
    by_cases null : block = pool.nullBlock
    · simp [null]
    · rw [sameRefs block null, sameOut block null]
  · intro block real
    rw [sameRefs block real]
    exact counted.counts block real
  · intro block real used
    rw [sameRefs block real] at used
    exact counted.inside block real used

/-- The accounts only read the queue, the counts, the size and the null block. -/
theorem counted_frame {pool' : Pool Digest} {refs : BlockId → Nat} {out : BlockId → Prop}
    (counted : Counted pool refs out) (queue : pool'.freeBlockQueue = pool.freeBlockQueue)
    (counts : ∀ block, (pool'.blocks block).refCnt = (pool.blocks block).refCnt)
    (shape : SameShape pool pool') : Counted pool' refs out := by
  constructor
  · rw [queue, shape.numGpuBlocks, shape.nullBlock]
    exact counted.queue
  · intro block real
    rw [counts block]
    exact counted.counts block (shape.nullBlock ▸ real)
  · intro block real used
    rw [shape.numGpuBlocks]
    exact counted.inside block (shape.nullBlock ▸ real) used

theorem sameCounts_counted {pool pool' : Pool Digest} (same : SameCounts pool pool')
    {refs : BlockId → Nat} {out : BlockId → Prop} (counted : Counted pool refs out) :
    Counted pool' refs out :=
  counted_frame pool counted same.queue same.counts same.shape

/-! Reference counts. -/

theorem count_one {block other : BlockId} :
    [block].count other = if other = block then 1 else 0 := by
  by_cases same : other = block
  · simp [same]
  · simp [same, count_eq_zero]

/-- One more reference to a block that is out of the queue. -/
theorem addRef_counted (out : BlockId → Prop) (block : BlockId) (counted : Counted pool refs out)
    (outside : block = pool.nullBlock ∨ block < pool.numGpuBlocks ∧ (0 < refs block ∨ out block)) :
    Counted (pool.addRef block 1) (fun other => refs other + [block].count other)
      (fun other => out other ∧ other ≠ block) := by
  obtain ⟨free, holds, mem⟩ := counted.queue
  constructor
  · refine ⟨free, holds, fun other => ?_⟩
    rw [mem other, count_one]
    change _ ↔ other < pool.numGpuBlocks ∧ other ≠ pool.nullBlock ∧ _
    by_cases same : other = block
    · subst same
      rcases outside with null | ⟨_, used | isOut⟩
      · simp [null]
      · simp [Nat.ne_of_gt used]
      · simp [isOut]
    · simp [same]
  · intro other real
    have before := counted.counts other real
    rw [addRef_refCnt, before, count_one]
    split <;> simp
  · intro other real used
    rw [count_one] at used
    by_cases same : other = block
    · rcases outside with null | ⟨within, _⟩
      · exact absurd (same.trans null) real
      · exact same ▸ within
    · simp only [same, ↓reduceIte, Nat.add_zero] at used
      exact counted.inside other real used

/-- One reference less; the last one takes the block out of the queue's reach. -/
theorem dropRef_counted (out : BlockId → Prop) (block : BlockId) (counted : Counted pool refs out)
    (held : block ≠ pool.nullBlock → 0 < refs block) :
    Counted (pool.addRef block (-1)) (fun other => refs other - [block].count other)
      (fun other => out other ∨ other = block ∧ refs block = 1) := by
  obtain ⟨free, holds, mem⟩ := counted.queue
  constructor
  · refine ⟨free, holds, fun other => ?_⟩
    rw [mem other, count_one]
    change _ ↔ other < pool.numGpuBlocks ∧ other ≠ pool.nullBlock ∧ _
    by_cases same : other = block
    · subst same
      by_cases null : other = pool.nullBlock
      · simp [null]
      · have used := held null
        simp only [↓reduceIte, true_and, not_or]
        constructor
        · omega
        · omega
    · simp [same]
  · intro other real
    have before := counted.counts other real
    rw [addRef_refCnt, before, count_one]
    by_cases same : other = block
    · have used := held (same ▸ real)
      simp only [same, ↓reduceIte]
      omega
    · simp [same]
  · intro other real used
    exact counted.inside other real (by omega)

section
variable [DecidableEq Digest]

theorem maybeEvict_counted {pool : Pool Digest} {block : BlockId} {refs : BlockId → Nat}
    {out : BlockId → Prop} (hashed : Hashed pool) (counted : Counted pool refs out) :
    Counted (pool.maybeEvictCachedBlock block).2 refs out := by
  have evicted := maybeEvict_evicted pool block hashed
  exact counted_frame pool counted evicted.queue evicted.counts evicted.shape

/-! Taking blocks. -/

theorem take_count (refs : BlockId → Nat) (block : BlockId) (rest : List BlockId) (other : BlockId) :
    refs other + [block].count other + rest.count other = refs other + (block :: rest).count other := by
  have split : block :: rest = [block] ++ rest := rfl
  rw [split, count_append]
  omega

/-- What the blocks that are taken lose, and all others keep. -/
structure Taken (pool pool' : Pool Digest) (ids : List BlockId) : Prop where
  shape : SameShape pool pool'
  kept : ∀ block, block ∉ ids → (pool'.blocks block).blockHash = (pool.blocks block).blockHash
  cleared : pool.enableCaching = true → ∀ block ∈ ids, (pool'.blocks block).blockHash = none

theorem takeLoop_taken (pool : Pool Digest) (ids : List BlockId) (refs : BlockId → Nat)
    (out : BlockId → Prop) (counted : Counted pool refs out) (hashed : Hashed pool)
    (distinct : ids.Nodup)
    (fresh : ∀ block ∈ ids, block < pool.numGpuBlocks ∧ block ≠ pool.nullBlock ∧ refs block = 0 ∧
      out block) :
    ∃ pool', pool.takeLoop ids = some pool' ∧ pool'.freeBlockQueue = pool.freeBlockQueue ∧
      Taken pool pool' ids ∧ Hashed pool' ∧
      Counted pool' (fun block => refs block + ids.count block)
        (fun block => out block ∧ block ∉ ids) := by
  induction ids generalizing pool refs out with
  | nil =>
    refine ⟨pool, rfl, rfl, ⟨SameShape.refl pool, fun _ _ => rfl, by simp⟩, hashed, ?_⟩
    exact counted_congr pool refs _ out _ counted (by simp) (by simp)
  | cons block rest ih =>
    obtain ⟨absent, distinctRest⟩ := nodup_cons.mp distinct
    obtain ⟨within, real, unused, isOut⟩ := fresh block mem_cons_self
    let evicted := if pool.enableCaching then (pool.maybeEvictCachedBlock block).2 else pool
    -- with caching on, the block loses its hash
    have step : SameShape pool evicted ∧ evicted.freeBlockQueue = pool.freeBlockQueue ∧
        Counted evicted refs out ∧ Hashed evicted ∧
        (∀ other, other ≠ block →
          (evicted.blocks other).blockHash = (pool.blocks other).blockHash) ∧
        (pool.enableCaching = true → (evicted.blocks block).blockHash = none) := by
      by_cases caching : pool.enableCaching = true
      · have gone := maybeEvict_evicted pool block hashed
        simp only [evicted, caching, ↓reduceIte]
        refine ⟨gone.shape, gone.queue, maybeEvict_counted hashed counted, gone.hashed, ?_, ?_⟩
        · intro other differs
          rw [gone.hashes other]
          simp [differs]
        · rw [gone.hashes block]
          simp
      · simp only [evicted, caching]
        exact ⟨SameShape.refl pool, rfl, counted, hashed, fun _ _ => rfl,
          fun on => absurd on (by simp)⟩
    obtain ⟨shape, queue, countedNow, hashedNow, others, cleared⟩ := step
    have zero : (evicted.blocks block).refCnt = 0 := by
      rw [countedNow.counts block (shape.nullBlock ▸ real), unused]
      rfl
    have added := addRef_counted evicted refs out block countedNow
      (Or.inr ⟨shape.numGpuBlocks ▸ within, Or.inr isOut⟩)
    have freshRest : ∀ other ∈ rest, other < (evicted.addRef block 1).numGpuBlocks ∧
        other ≠ (evicted.addRef block 1).nullBlock ∧ refs other + [block].count other = 0 ∧
          (out other ∧ other ≠ block) := by
      intro other member
      obtain ⟨within, real, unused, isOut⟩ := fresh other (mem_cons_of_mem _ member)
      have differs : other ≠ block := fun same => absent (same ▸ member)
      refine ⟨shape.numGpuBlocks ▸ within, shape.nullBlock ▸ real, ?_, isOut, differs⟩
      rw [count_one, unused]
      simp [differs]
    obtain ⟨pool', result, queue', taken, hashed', counted'⟩ := ih (evicted.addRef block 1) _ _
      added (addRef_hashed evicted block 1 hashedNow) distinctRest freshRest
    refine ⟨pool', ?_, queue'.trans queue, ⟨?_, ?_, ?_⟩, hashed', ?_⟩
    · rw [Pool.takeLoop]
      rw [if_pos zero]
      exact result
    · exact (shape.trans (addRef_shape evicted block 1)).trans taken.shape
    · intro other outside
      rw [mem_cons, not_or] at outside
      rw [taken.kept other outside.2, addRef_blockHash, others other outside.1]
    · intro caching other member
      rcases mem_cons.mp member with rfl | inRest
      · rw [taken.kept other absent, addRef_blockHash, cleared caching]
      · exact taken.cleared (shape.enableCaching.trans caching) other inRest
    · apply counted_congr pool' _ _ _ _ counted'
      · intro other _
        exact (take_count refs block rest other).symm
      · intro other _
        simp only [mem_cons, not_or]
        exact and_assoc.symm

theorem getNewBlocks_some {pool : Pool Digest} (numBlocks : Nat) {refs : BlockId → Nat}
    (counted : Counted pool refs fun _ => False) (hashed : Hashed pool)
    (enough : numBlocks ≤ pool.getNumFreeBlocks) :
    ∃ ids pool', pool.getNewBlocks numBlocks = some (ids, pool') ∧
      pool'.getNumFreeBlocks = pool.getNumFreeBlocks - numBlocks ∧
      ids.length = numBlocks ∧ ids.Nodup ∧
      (∀ block ∈ ids, block < pool.numGpuBlocks ∧ block ≠ pool.nullBlock ∧ refs block = 0) ∧
      Taken pool pool' ids ∧ Hashed pool' ∧
      Counted pool' (fun block => refs block + ids.count block) fun _ => False := by
  obtain ⟨free, holds, mem⟩ := counted.queue
  have enough : numBlocks ≤ free.length := by
    rw [Pool.getNumFreeBlocks, holds.count] at enough
    omega
  obtain ⟨queue, popped, rest⟩ := popleftN_holds pool.freeBlockQueue enough holds
  have distinct := holds.represents.distinct
  let ids' := free.take numBlocks
  have distinctIds : ids'.Nodup := distinct.sublist (take_sublist _ _)
  have split : ∀ block, block ∈ free.drop numBlocks ↔ block ∈ free ∧ block ∉ ids' := by
    intro block
    have whole := take_append_drop numBlocks free
    rw [← whole] at distinct
    have apart := (nodup_append.mp distinct).2.2
    constructor
    · intro member
      exact ⟨mem_of_mem_drop member, fun taken => apart block taken block member rfl⟩
    · rintro ⟨member, notTaken⟩
      rw [← whole, mem_append] at member
      exact member.resolve_left notTaken
  have fresh : ∀ block ∈ ids', block < pool.numGpuBlocks ∧ block ≠ pool.nullBlock ∧
      refs block = 0 := by
    intro block member
    obtain ⟨within, real, unused, _⟩ := (mem block).mp (mem_of_mem_take member)
    exact ⟨within, real, unused⟩
  let bare := { pool with freeBlockQueue := queue }
  have shape : SameShape pool bare := ⟨rfl, rfl, rfl, rfl⟩
  have countedBare : Counted bare refs fun block => block ∈ ids' := by
    constructor
    · refine ⟨_, rest, fun block => ?_⟩
      rw [split block, mem block]
      simp only [not_false_eq_true, and_true, and_assoc]
      rfl
    · exact counted.counts
    · exact counted.inside
  obtain ⟨final, result, queue', taken, hashed', counted'⟩ := takeLoop_taken bare ids' refs _ countedBare
    (hashed_frame pool bare hashed (fun _ => rfl) rfl shape) distinctIds
    fun block member => ⟨(fresh block member).1, (fresh block member).2.1, (fresh block member).2.2,
      member⟩
  have outcome : pool.getNewBlocks numBlocks = some (ids', final) := by
    rw [Pool.getNewBlocks, if_neg, popped]
    · change Option.map _ (bare.takeLoop ids') = _
      rw [result]
      rfl
    · omega
  refine ⟨ids', final, outcome, ?_, by rw [length_take, min_eq_left enough], distinctIds, fresh,
    ⟨shape.trans taken.shape, taken.kept, taken.cleared⟩, hashed', ?_⟩
  · rw [Pool.getNumFreeBlocks, Pool.getNumFreeBlocks, queue']
    rw [rest.count, holds.count, length_drop]
    omega
  · apply counted_congr final _ _ _ _ counted'
    · exact fun _ _ => rfl
    · simp

theorem getNewBlocks_taken {pool : Pool Digest} {numBlocks : Nat} {refs : BlockId → Nat}
    (counted : Counted pool refs fun _ => False) (hashed : Hashed pool) {ids : List BlockId}
    {pool' : Pool Digest} (got : pool.getNewBlocks numBlocks = some (ids, pool')) :
    ids.length = numBlocks ∧ ids.Nodup ∧
      (∀ block ∈ ids, block < pool.numGpuBlocks ∧ block ≠ pool.nullBlock ∧ refs block = 0) ∧
      Taken pool pool' ids ∧ Hashed pool' ∧
      Counted pool' (fun block => refs block + ids.count block) fun _ => False := by
  have enough : numBlocks ≤ pool.getNumFreeBlocks := by
    by_contra short
    simp [Pool.getNewBlocks, Int.lt_of_not_ge short] at got
  obtain ⟨ids', final, outcome, _, facts⟩ := getNewBlocks_some numBlocks counted hashed enough
  obtain ⟨rfl, rfl⟩ : ids' = ids ∧ final = pool' := by
    rw [got, some.injEq, Prod.mk.injEq] at outcome
    exact ⟨outcome.1.symm, outcome.2.symm⟩
  exact facts

end

/-! Sharing and returning blocks. -/

/-- A free block is unlinked from the queue before it is referenced. -/
theorem remove_counted (pool : Pool Digest) (refs : BlockId → Nat) (block : BlockId)
    (counted : Counted pool refs fun _ => False) (within : block < pool.numGpuBlocks)
    (real : block ≠ pool.nullBlock) (unused : refs block = 0) :
    ∃ queue, pool.freeBlockQueue.remove block = some queue ∧
      Counted { pool with freeBlockQueue := queue } refs fun other => other = block := by
  obtain ⟨free, holds, mem⟩ := counted.queue
  have inFree : block ∈ free := (mem block).mpr ⟨within, real, unused, not_false⟩
  obtain ⟨before, after, split⟩ := append_of_mem inFree
  rw [split] at holds
  obtain ⟨queue, removed, rest⟩ := remove_holds pool.freeBlockQueue holds
  obtain ⟨notBefore, notAfter, _⟩ := LinkedQueue.nodup_middle holds.represents.distinct
  refine ⟨queue, removed, ?_⟩
  constructor
  · refine ⟨before ++ after, rest, fun other => ?_⟩
    have old := mem other
    rw [split, mem_append, mem_cons] at old
    rw [mem_append]
    by_cases same : other = block
    · subst same
      simp [notBefore, notAfter]
    · simp only [same, false_or, not_false_eq_true, and_true] at old ⊢
      exact old
  · exact counted.counts
  · exact counted.inside

theorem touch_counted (pool : Pool Digest) (blocks : List BlockId) (refs : BlockId → Nat)
    (counted : Counted pool refs fun _ => False)
    (valid : ∀ block ∈ blocks, block = pool.nullBlock ∨ block < pool.numGpuBlocks) :
    ∃ pool', pool.touch blocks = some pool' ∧ SameHashes pool pool' ∧
      Counted pool' (fun block => refs block + blocks.count block) fun _ => False := by
  induction blocks generalizing pool refs with
  | nil =>
    refine ⟨pool, rfl, SameHashes.refl pool, ?_⟩
    exact counted_congr pool refs _ _ _ counted (by simp) (by simp)
  | cons block rest ih =>
    -- the block is taken out of the queue unless something holds it already
    have step : ∃ linked, SameHashes pool linked ∧
        pool.touch (block :: rest) = (linked.addRef block 1).touch rest ∧
        Counted (linked.addRef block 1) (fun other => refs other + [block].count other)
          fun _ => False := by
      by_cases free : (pool.blocks block).refCnt = 0 ∧ pool.isNull block = false
      · have real : block ≠ pool.nullBlock := by simpa [Pool.isNull] using free.2
        have within := (valid block mem_cons_self).resolve_left real
        have unused : refs block = 0 := by
          have := counted.counts block real
          omega
        obtain ⟨queue, removed, countedNow⟩ :=
          remove_counted pool refs block counted within real unused
        refine ⟨{ pool with freeBlockQueue := queue }, ⟨⟨rfl, rfl, rfl, rfl⟩, fun _ => rfl, rfl⟩,
          ?_, ?_⟩
        · rw [Pool.touch, if_pos free, removed]
        · apply counted_congr _ _ _ _ _
            (addRef_counted _ refs _ block countedNow (Or.inr ⟨within, Or.inr rfl⟩))
          · exact fun _ _ => rfl
          · simp
      · refine ⟨pool, SameHashes.refl pool, by rw [Pool.touch, if_neg free], ?_⟩
        have held : block = pool.nullBlock ∨ block < pool.numGpuBlocks ∧
            (0 < refs block ∨ False) := by
          by_cases real : block = pool.nullBlock
          · exact Or.inl real
          · have counts := counted.counts block real
            have within := (valid block mem_cons_self).resolve_left real
            simp only [Pool.isNull, real, decide_false, and_true] at free
            exact Or.inr ⟨within, Or.inl (by omega)⟩
        apply counted_congr _ _ _ _ _ (addRef_counted pool refs _ block counted held)
        · exact fun _ _ => rfl
        · simp
    obtain ⟨linked, same, unfolded, countedNow⟩ := step
    have sameNow := same.trans (addRef_sameHashes linked block 1)
    obtain ⟨pool', result, rest', counted'⟩ := ih (linked.addRef block 1) _ countedNow (by
      intro other member
      rw [sameNow.shape.nullBlock, sameNow.shape.numGpuBlocks]
      exact valid other (mem_cons_of_mem _ member))
    refine ⟨pool', unfolded.trans result, sameNow.trans rest', ?_⟩
    apply counted_congr pool' _ _ _ _ counted'
    · intro other _
      exact (take_count refs block rest other).symm
    · simp

theorem dropRefs_counted (pool : Pool Digest) (blocks : List BlockId) (refs : BlockId → Nat)
    (out : BlockId → Prop) (counted : Counted pool refs out)
    (held : ∀ block, block ≠ pool.nullBlock → blocks.count block ≤ refs block)
    (distinct : ∀ block, block ≠ pool.nullBlock → blocks.count block ≤ 1) :
    SameHashes pool (blocks.foldl (fun pool block => pool.addRef block (-1)) pool) ∧
      Counted (blocks.foldl (fun pool block => pool.addRef block (-1)) pool)
        (fun block => refs block - blocks.count block)
        (fun block => out block ∨ block ∈ blocks ∧ refs block = 1) := by
  induction blocks generalizing pool refs out with
  | nil =>
    refine ⟨SameHashes.refl pool, ?_⟩
    exact counted_congr pool refs _ out _ counted (by simp) (by simp)
  | cons block rest ih =>
    have split (other : BlockId) :
        (block :: rest).count other = [block].count other + rest.count other := by
      rw [← count_append]
      rfl
    have dropped := dropRef_counted pool refs out block counted fun real => by
      have := held block real
      rw [split, count_one] at this
      simp only [↓reduceIte] at this
      omega
    obtain ⟨same, counted'⟩ := ih (pool.addRef block (-1)) _ _ dropped
      (fun other real => by
        have := held other real
        rw [split] at this
        omega)
      (fun other real => by
        have := distinct other real
        rw [split] at this
        omega)
    refine ⟨(addRef_sameHashes pool block (-1)).trans same, ?_⟩
    apply counted_congr _ _ _ _ _ counted'
    · intro other _
      rw [split]
      omega
    · intro other real
      have once := distinct other (same.shape.nullBlock ▸ real)
      rw [split, count_one] at once
      rw [count_one]
      by_cases here : other = block
      · have absent : other ∉ rest := by
          simp only [here, ↓reduceIte] at once
          rw [here, ← count_eq_zero]
          omega
        simp [here] at absent ⊢
        simp [absent]
      · simp [here]

/-- Returning blocks: each that loses its last reference is queued. -/
theorem freeBlocks_counted {pool : Pool Digest} (blocks : List BlockId) {refs : BlockId → Nat}
    (counted : Counted pool refs fun _ => False)
    (held : ∀ block, block ≠ pool.nullBlock → blocks.count block ≤ refs block)
    (distinct : ∀ block, block ≠ pool.nullBlock → blocks.count block ≤ 1) :
    ∃ pool', pool.freeBlocks blocks = some pool' ∧ SameHashes pool pool' ∧
      Counted pool' (fun block => refs block - blocks.count block) fun _ => False := by
  obtain ⟨same, dropped⟩ := dropRefs_counted pool blocks refs _ counted held distinct
  let pool₁ := blocks.foldl (fun pool block => pool.addRef block (-1)) pool
  obtain ⟨free, holds, mem⟩ := dropped.queue
  let last := blocks.filter fun block =>
    decide ((pool₁.blocks block).refCnt = 0) && !pool₁.isNull block
  have inLast (block : BlockId) :
      block ∈ last ↔ block ≠ pool.nullBlock ∧ block ∈ blocks ∧ refs block = 1 := by
    simp only [last, mem_filter, Bool.and_eq_true, decide_eq_true_eq, Bool.not_eq_true',
      Pool.isNull, decide_eq_false_iff_not]
    have null : pool₁.nullBlock = pool.nullBlock := same.shape.nullBlock
    rw [null]
    by_cases real : block = pool.nullBlock
    · simp [real]
    · have counts := dropped.counts block (null ▸ real)
      change (pool₁.blocks block).refCnt = _ at counts
      have most := held block real
      have once := distinct block real
      constructor
      · rintro ⟨member, zero, _⟩
        have := count_pos_iff.mpr member
        exact ⟨real, member, by omega⟩
      · rintro ⟨_, member, one⟩
        have := count_pos_iff.mpr member
        exact ⟨member, by omega, real⟩
  have fresh : ∀ block ∈ last, block ∉ free := by
    intro block member inFree
    obtain ⟨_, _, _, notOut⟩ := (mem block).mp inFree
    exact notOut (Or.inr ((inLast block).mp member).2)
  have nodup : last.Nodup := by
    rw [nodup_iff_count_le_one]
    intro block
    by_cases member : block ∈ last
    · have real := ((inLast block).mp member).1
      exact Nat.le_trans (filter_sublist.count_le block) (distinct block real)
    · rw [count_eq_zero.mpr member]
      exact Nat.zero_le 1
  obtain ⟨queue, appended, rest⟩ := appendN_holds pool₁.freeBlockQueue fresh nodup holds
  refine ⟨{ pool₁ with freeBlockQueue := queue }, ?_, ?_, ?_⟩
  · change (pool₁.freeBlockQueue.appendN last).map _ = _
    rw [appended]
    rfl
  · exact ⟨⟨same.shape.numGpuBlocks, same.shape.nullBlock, same.shape.enableCaching,
      same.shape.hashBlockSize⟩, same.hashes, same.cache⟩
  · constructor
    · refine ⟨free ++ last, rest, fun block => ?_⟩
      rw [mem_append, mem block, inLast block]
      have null : pool₁.nullBlock = pool.nullBlock := same.shape.nullBlock
      have size : pool₁.numGpuBlocks = pool.numGpuBlocks := same.shape.numGpuBlocks
      rw [null, size]
      by_cases real : block = pool.nullBlock
      · simp [real]
      · have inside := counted.inside block real
        simp only [real, not_false_eq_true, true_and, false_or, and_true, ne_eq, not_and]
        constructor
        · rintro (⟨within, unused, _⟩ | ⟨member, one⟩)
          · exact ⟨within, unused⟩
          · have := count_pos_iff.mpr member
            exact ⟨inside (by omega), by omega⟩
        · rintro ⟨within, unused⟩
          by_cases member : block ∈ blocks ∧ refs block = 1
          · exact Or.inr member
          · exact Or.inl ⟨within, unused, fun inside one => member ⟨inside, one⟩⟩
    · exact dropped.counts
    · exact dropped.inside

theorem init_counted (numGpuBlocks hashBlockSize : Nat) (enableCaching enableKvCacheEvents : Bool)
    (pool : Pool Digest)
    (made : Pool.init numGpuBlocks enableCaching hashBlockSize enableKvCacheEvents = some pool) :
    Hashed pool ∧ Counted pool (fun _ => 0) (fun _ => False) ∧ pool.numGpuBlocks = numGpuBlocks ∧
      pool.enableCaching = enableCaching ∧ pool.nullBlock < pool.numGpuBlocks := by
  have holds := init_holds numGpuBlocks
  cases numGpuBlocks with
  | zero =>
    have none : (FreeQueue.init 0).popleft = none := rfl
    simp [Pool.init, none] at made
  | succ count =>
    rw [range_succ_eq_map] at holds
    obtain ⟨queue, popped, rest⟩ := popleft_holds _ 0 _ holds
    simp only [Pool.init, popped, map_some, some.injEq] at made
    subst made
    refine ⟨?_, ?_, rfl, rfl, Nat.succ_pos count⟩
    · constructor
      · simp [members]
      · intro key blocks entry
        contradiction
      · intro block key hash
        contradiction
    · constructor
      · refine ⟨_, rest, fun block => ?_⟩
        cases block with
        | zero => simp
        | succ block => simp
      · intro block _
        rfl
      · omega

end VllmDcu.PoolAccounts

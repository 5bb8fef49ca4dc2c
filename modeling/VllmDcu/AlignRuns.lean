import VllmDcu.AlignTables

/-! Requests in a Mamba group in the "align" cache mode. `allocate_slots` asks the group how many
blocks it needs, and after that the group has to draw exactly these; the calls of other groups on
the same pool may come between any two calls of this one. -/
namespace VllmDcu.AlignRuns
open Requests FreeBlockQueue BlockPool KVCacheInterface MathUtils SingleTypeManager
open PoolCache PoolAccounts TableAccounts TableTurns FreeOrder AlignTables List Option Function Dict

variable {Digest : Type}

/-- How far `allocate_slots` has come with the group. -/
inductive Stage where
  | idle
  | promised (requestId : ReqId) (blocks : List BlockId)
      (numTokensMainModel promised evictable : Int)
  | computed (requestId : ReqId) (numTokensMainModel owed : Int)

/-- The group, the pool, and the tokens that the last allocation of each request covers. -/
structure State (Digest : Type) where
  pool : Pool Digest
  manager : Manager Digest
  scheduled : ReqId → Option Int
  stage : Stage

/-- What the scheduler may ask for: a hit ends with the computed tokens of a new request, and the
computed tokens of another one are those of its last step but for rejected drafts. -/
def Asked (state : State Digest) (requestId : ReqId) (blocks : List BlockId)
    (numComputedTokens numNewTokens : Int) : Prop :=
  0 < numNewTokens ∧
    match state.scheduled requestId with
    | none => StateHit state.pool.nullBlock blocks ∧
        numComputedTokens = blocks.length * (state.manager.blockSize : Int)
    | some before => blocks = [] ∧ 0 ≤ numComputedTokens ∧ numComputedTokens ≤ before

/-- The tokens of the main model need no fewer blocks than at the last allocation. -/
def Grows (state : State Digest) (requestId : ReqId) (numTokensMainModel : Int) : Prop :=
  ∀ before, state.scheduled requestId = some before →
    cdiv before state.manager.blockSize ≤ cdiv numTokensMainModel state.manager.blockSize

inductive Call (Digest : Type) where
  | elsewhere
  | removeSkippedBlocks (requestId : ReqId) (totalComputedTokens : Int)
  | getNumBlocksToAllocate (requestId : ReqId) (blocks : List BlockId)
      (numComputedTokens numNewTokens : Int)
  | allocateNewComputedBlocks
  | allocateNewBlocks
  | cacheBlocks (request : Request Digest) (numTokens : Int)
  | free (requestId : ReqId)
  | newStepStarts

section
variable [DecidableEq Digest]

/-- One call that succeeds; `allocate_slots` goes on only with enough free blocks. -/
inductive Step (state : State Digest) : Call Digest → State Digest → Prop where
  | elsewhere (pool : Pool Digest) (shape : SameShape state.pool pool)
      (backed : Backed pool state.manager) :
      Step state .elsewhere { state with pool := pool }
  | removeSkippedBlocks (requestId : ReqId) (totalComputedTokens : Int) (pool : Pool Digest)
      (manager : Manager Digest) (idle : state.stage = .idle)
      (computed : ∀ before, state.scheduled requestId = some before →
        totalComputedTokens ≤ before)
      (done : state.manager.removeSkippedBlocks state.pool requestId totalComputedTokens =
        some (pool, manager)) :
      Step state (.removeSkippedBlocks requestId totalComputedTokens)
        { state with pool := pool, manager := manager }
  | getNumBlocksToAllocate (requestId : ReqId) (blocks : List BlockId)
      (numComputedTokens numNewTokens numTokens totalComputedTokens promised : Int)
      (idle : state.stage = .idle)
      (asked : Asked state requestId blocks numComputedTokens numNewTokens)
      (done : state.manager.getNumBlocksToAllocate state.pool requestId numTokens blocks
        totalComputedTokens (numComputedTokens + numNewTokens) = some promised)
      (within : state.pool.getNumFreeBlocks ≤ state.pool.numGpuBlocks)
      (enough : promised ≤ state.pool.getNumFreeBlocks) :
      Step state (.getNumBlocksToAllocate requestId blocks numComputedTokens numNewTokens)
        { state with
          stage := .promised requestId blocks (numComputedTokens + numNewTokens) promised
            (Manager.getNumEvictableBlocks state.pool blocks) }
  | allocateNewComputedBlocks (requestId : ReqId) (blocks : List BlockId)
      (numTokensMainModel promised evictable : Int) (pool : Pool Digest)
      (manager : Manager Digest)
      (stage : state.stage = .promised requestId blocks numTokensMainModel promised evictable)
      (fresh : state.scheduled requestId = none)
      (done : state.manager.allocateNewComputedBlocks state.pool requestId blocks
        (blocks.length * (state.manager.blockSize : Int)) 0 = some (pool, manager)) :
      Step state .allocateNewComputedBlocks
        { state with
          pool := pool
          manager := manager
          stage := .computed requestId numTokensMainModel (promised - evictable) }
  | withoutComputedBlocks (requestId : ReqId) (numTokensMainModel promised evictable : Int)
      (stage : state.stage = .promised requestId [] numTokensMainModel promised evictable) :
      Step state .allocateNewComputedBlocks
        { state with stage := .computed requestId numTokensMainModel (promised - evictable) }
  | allocateNewBlocks (requestId : ReqId) (numTokensMainModel owed numTokens : Int)
      (newBlocks : List BlockId) (pool : Pool Digest) (manager : Manager Digest)
      (stage : state.stage = .computed requestId numTokensMainModel owed)
      (done : state.manager.allocateNewBlocks state.pool requestId numTokens numTokensMainModel =
        some (newBlocks, pool, manager)) :
      Step state .allocateNewBlocks
        { pool := pool
          manager := manager
          scheduled := Function.update state.scheduled requestId (some numTokensMainModel)
          stage := .idle }
  | cacheBlocks (request : Request Digest) (numTokens : Int) (pool : Pool Digest)
      (manager : Manager Digest) (idle : state.stage = .idle)
      (done : state.manager.cacheBlocks state.pool request numTokens = some (pool, manager)) :
      Step state (.cacheBlocks request numTokens) { state with pool := pool, manager := manager }
  | free (requestId : ReqId) (pool : Pool Digest) (manager : Manager Digest)
      (idle : state.stage = .idle)
      (done : state.manager.free state.pool requestId = some (pool, manager)) :
      Step state (.free requestId)
        { state with
          pool := pool
          manager := manager
          scheduled := Function.update state.scheduled requestId none }
  | newStepStarts (idle : state.stage = .idle) :
      Step state .newStepStarts { state with manager := state.manager.newStepStarts }

/-- The condition on a call. -/
def Steady (state : State Digest) : Call Digest → Prop
  | .getNumBlocksToAllocate requestId _ numComputedTokens numNewTokens =>
    Grows state requestId (numComputedTokens + numNewTokens)
  | _ => True

end

/-! The invariant. -/

/-- The blocks that the next allocation of a request draws. -/
def drawCount (spec : MambaSpec) (state : State Digest) (requestId : ReqId)
    (numTokensMainModel : Int) : Nat :=
  match state.scheduled requestId with
  | none => 1 + spec.numSpeculativeBlocks
  | some before =>
    if cdiv before state.manager.blockSize < cdiv numTokensMainModel state.manager.blockSize then 1
    else 0

/-- What is known of the request that is being allocated. -/
def Pending (spec : MambaSpec) (state : State Digest) : Stage → Prop
  | .idle => True
  | .promised requestId blocks numTokensMainModel promised evictable =>
    0 < numTokensMainModel ∧
      promised - evictable = drawCount spec state requestId numTokensMainModel ∧
      match state.scheduled requestId with
      | none => StateHit state.pool.nullBlock blocks ∧
          blocks.length * (state.manager.blockSize : Int) < numTokensMainModel
      | some before =>
        cdiv before state.manager.blockSize ≤ cdiv numTokensMainModel state.manager.blockSize
  | .computed requestId numTokensMainModel owed =>
    0 < numTokensMainModel ∧ owed = drawCount spec state requestId numTokensMainModel ∧
      match state.scheduled requestId with
      | none => Starting state.manager requestId numTokensMainModel
      | some before =>
        cdiv before state.manager.blockSize ≤ cdiv numTokensMainModel state.manager.blockSize

/-- The request has its computed blocks already. -/
def Computing (state : State Digest) (requestId : ReqId) : Prop :=
  ∃ numTokensMainModel owed, state.stage = .computed requestId numTokensMainModel owed

structure Holds (spec : MambaSpec) (state : State Digest) : Prop where
  kind : state.manager.kvCacheSpec = .mamba spec
  align : spec.mambaCacheMode = .align
  positive : 0 < state.manager.blockSize
  backed : Backed state.pool state.manager
  holding : ∀ requestId before, state.scheduled requestId = some before →
    0 < before ∧ Holding spec state.pool.nullBlock state.manager requestId before
  absent : ∀ requestId, state.scheduled requestId = none → ¬ Computing state requestId →
    Absent state.manager requestId
  pending : Pending spec state state.stage

theorem Pending.frame {spec : MambaSpec} {state : State Digest} {pool : Pool Digest}
    {manager : Manager Digest} (stage : Stage) (pending : Pending spec state stage)
    (null : pool.nullBlock = state.pool.nullBlock)
    (blockSize : manager.blockSize = state.manager.blockSize)
    (unmoved : ∀ requestId, Unmoved state.manager manager requestId) :
    Pending spec { state with pool := pool, manager := manager } stage := by
  cases stage with
  | idle => trivial
  | promised requestId blocks numTokensMainModel promised evictable =>
    simp only [Pending, drawCount, null, blockSize] at pending ⊢
    exact pending
  | computed requestId numTokensMainModel owed =>
    simp only [Pending, drawCount, blockSize] at pending ⊢
    obtain ⟨positive, count, known⟩ := pending
    refine ⟨positive, count, ?_⟩
    cases scheduled : state.scheduled requestId with
    | none =>
      rw [scheduled] at known
      exact known.frame (unmoved requestId)
    | some before =>
      rw [scheduled] at known
      exact known

/-- Only the pool changes, or what the group does not need to know. -/
theorem Holds.frame {spec : MambaSpec} {state : State Digest} (holds : Holds spec state)
    (pool : Pool Digest) (manager : Manager Digest)
    (null : pool.nullBlock = state.pool.nullBlock) (same : SameManager state.manager manager)
    (unmoved : ∀ requestId, Unmoved state.manager manager requestId)
    (backed : Backed pool manager) :
    Holds spec { state with pool := pool, manager := manager } := by
  constructor
  · exact same.kvCacheSpec.trans holds.kind
  · exact holds.align
  · rw [same.blockSize]
    exact holds.positive
  · exact backed
  · intro requestId before scheduled
    obtain ⟨positive, holding⟩ := holds.holding requestId before scheduled
    refine ⟨positive, ?_⟩
    rw [← null] at holding
    exact holding.frame (unmoved requestId)
  · intro requestId unscheduled waiting
    exact (holds.absent requestId unscheduled waiting).frame (unmoved requestId)
  · exact holds.pending.frame _ null same.blockSize unmoved

/-- A call for one request between allocations. -/
theorem Holds.turn {spec : MambaSpec} {state : State Digest} (holds : Holds spec state)
    (idle : state.stage = .idle) (pool : Pool Digest) (manager : Manager Digest)
    (scheduled : ReqId → Option Int) (requestId : ReqId)
    (turn : Turn requestId state.pool pool state.manager manager)
    (others : ∀ other, other ≠ requestId → Unmoved state.manager manager other)
    (elsewhere : ∀ other, other ≠ requestId → scheduled other = state.scheduled other)
    (holding : ∀ before, scheduled requestId = some before →
      0 < before ∧ Holding spec state.pool.nullBlock manager requestId before)
    (absent : scheduled requestId = none → Absent manager requestId) :
    Holds spec ⟨pool, manager, scheduled, .idle⟩ := by
  have null := turn.moved.shape.nullBlock
  constructor
  · exact turn.same.kvCacheSpec.trans holds.kind
  · exact holds.align
  · rw [turn.same.blockSize]
    exact holds.positive
  · exact holds.backed.turn turn
  · intro other before known
    rw [null]
    by_cases here : other = requestId
    · subst here
      exact holding before known
    · obtain ⟨positive, held⟩ := holds.holding other before
        ((elsewhere other here).symm.trans known)
      exact ⟨positive, held.frame (others other here)⟩
  · intro other unknown _
    by_cases here : other = requestId
    · subst here
      exact absent unknown
    · apply Absent.frame _ (others other here)
      apply holds.absent other ((elsewhere other here).symm.trans unknown)
      rintro ⟨numTokensMainModel, owed, stage⟩
      rw [idle] at stage
      contradiction
  · trivial

section
variable [DecidableEq Digest]

variable (spec : MambaSpec) (state : State Digest)

omit [DecidableEq Digest] in
theorem removeSkippedBlocks_holds (holds : Holds spec state) (idle : state.stage = .idle)
    {requestId : ReqId} {totalComputedTokens : Int} {pool : Pool Digest} {manager : Manager Digest}
    (computed : ∀ before, state.scheduled requestId = some before → totalComputedTokens ≤ before)
    (done : state.manager.removeSkippedBlocks state.pool requestId totalComputedTokens =
      some (pool, manager)) :
    Holds spec { state with pool := pool, manager := manager } := by
  have turn := (removeSkippedBlocks_shed state.manager manager (holds.backed.ready requestId) done).turn
  rw [idle]
  cases scheduled : state.scheduled requestId with
  | none =>
    have absent := holds.absent requestId scheduled (by
      rintro ⟨numTokensMainModel, owed, stage⟩
      rw [idle] at stage
      contradiction)
    -- An empty table has nothing to give up, wherever the skipped blocks end.
    have cleared := removeSkippedBlocks_cleared spec state.manager manager holds.kind
      ((max 0 (totalComputedTokens - spec.numSpeculativeBlocks) - 1) /
        state.manager.blockSize).toNat (by omega)
      (by
        intro index found
        rw [absent.last] at found
        contradiction)
      done
    apply holds.turn idle pool manager state.scheduled requestId turn cleared.others
      (fun _ _ => rfl)
    · intro before known
      rw [scheduled] at known
      contradiction
    · intro _
      constructor
      · apply eq_nil_of_length_eq_zero
        rw [cleared.length, absent.blocks]
        rfl
      · rw [cleared.allocated]
        exact absent.allocated
      · rw [cleared.last]
        exact absent.last
  | some before =>
    obtain ⟨positive, holding⟩ := holds.holding requestId before scheduled
    obtain ⟨held, others⟩ := removeSkippedBlocks_holding spec state.manager manager holds.kind holds.positive holding positive
      (computed before scheduled) done
    apply holds.turn idle pool manager state.scheduled requestId turn others (fun _ _ => rfl)
    · intro earlier known
      rw [scheduled] at known
      obtain rfl := some.inj known
      exact ⟨positive, held⟩
    · intro unknown
      rw [scheduled] at unknown
      contradiction

omit [DecidableEq Digest] in
theorem free_holds (holds : Holds spec state) (idle : state.stage = .idle) {requestId : ReqId}
    {pool : Pool Digest} {manager : Manager Digest}
    (done : state.manager.free state.pool requestId = some (pool, manager)) :
    Holds spec
      { state with
        pool := pool
        manager := manager
        scheduled := Function.update state.scheduled requestId none } := by
  have turn := free_turn state.manager manager (holds.backed.ready requestId) done
  obtain ⟨final, -, same⟩ := map_eq_some_iff.mp done
  obtain ⟨rfl, rfl⟩ := Prod.mk.inj same
  rw [idle]
  apply holds.turn idle _ _ _ requestId turn
  · intro other differs
    constructor
    · rfl
    · exact turn.others other differs
    · simp [differs]
    · rw [get?_erase, if_neg differs]
  · intro other differs
    exact update_of_ne differs _ _
  · intro before known
    rw [update_self] at known
    contradiction
  · intro _
    constructor
    · simp [Manager.blocksOf, get?_erase]
    · simp
    · rw [get?_erase, if_pos rfl]

/-! The promise. -/

omit [DecidableEq Digest] in
theorem Holds.unscheduled {spec : MambaSpec} {state : State Digest} (holds : Holds spec state)
    (idle : state.stage = .idle) (requestId : ReqId) (scheduled : state.scheduled requestId = none) :
    Absent state.manager requestId := by
  apply holds.absent requestId scheduled
  rintro ⟨numTokensMainModel, owed, stage⟩
  rw [idle] at stage
  contradiction

omit [DecidableEq Digest] in
/-- Blocks that are required beyond the table and the hit. -/
theorem missing_count (holds : Holds spec state) (idle : state.stage = .idle) {requestId : ReqId}
    {blocks : List BlockId} {numComputedTokens numNewTokens : Int}
    (asked : Asked state requestId blocks numComputedTokens numNewTokens)
    (grows : Grows state requestId (numComputedTokens + numNewTokens)) :
    0 < numComputedTokens + numNewTokens ∧
      (if cdiv (numComputedTokens + numNewTokens) state.manager.blockSize +
          spec.numSpeculativeBlocks - blocks.length -
            (state.manager.blocksOf requestId).length > 0 then
        if requestId ∈ state.manager.allocatedBlockReqs then 1 else 1 + spec.numSpeculativeBlocks
      else
        cdiv (numComputedTokens + numNewTokens) state.manager.blockSize +
          spec.numSpeculativeBlocks - blocks.length -
            (state.manager.blocksOf requestId).length : Int) =
        drawCount spec state requestId (numComputedTokens + numNewTokens) := by
  obtain ⟨positive, known⟩ := asked
  unfold drawCount
  cases scheduled : state.scheduled requestId with
  | none =>
    rw [scheduled] at known
    obtain ⟨-, rfl⟩ := known
    have absent := holds.unscheduled idle requestId scheduled
    have nonneg : (0 : Int) ≤ blocks.length * (state.manager.blockSize : Int) :=
      Int.mul_nonneg (by omega) (by omega)
    have more := (lt_cdiv_iff (blocks.length * (state.manager.blockSize : Int) + numNewTokens)
      blocks.length holds.positive).mpr (by omega)
    constructor
    · omega
    · simp only [absent.blocks, length_nil, absent.allocated, ↓reduceIte]
      omega
  | some before =>
    rw [scheduled] at known
    obtain ⟨rfl, nonneg, -⟩ := known
    obtain ⟨-, holding⟩ := holds.holding requestId before scheduled
    have length := holding.length
    have atLeast := grows before scheduled
    constructor
    · omega
    · simp only [length_nil, holding.allocated, ↓reduceIte]
      by_cases more : cdiv before state.manager.blockSize <
          cdiv (numComputedTokens + numNewTokens) state.manager.blockSize
      · rw [if_pos more, if_pos (by omega)]
        rfl
      · rw [if_neg more]
        omega

section
variable (holds : Holds spec state)
include holds

/-- The estimate is the number of blocks to draw, with the hits that leave the queue; a state that
was cached in this step asks for more than there are. -/
theorem getNumBlocksToAllocate_counts (idle : state.stage = .idle)
    {requestId : ReqId} {blocks : List BlockId}
    {numComputedTokens numNewTokens numTokens totalComputedTokens : Int}
    (asked : Asked state requestId blocks numComputedTokens numNewTokens)
    (grows : Grows state requestId (numComputedTokens + numNewTokens)) :
    ∃ promised, state.manager.getNumBlocksToAllocate state.pool requestId numTokens blocks
        totalComputedTokens (numComputedTokens + numNewTokens) = some promised ∧
      (promised = state.pool.numGpuBlocks + 1 ∨
        promised = drawCount spec state requestId (numComputedTokens + numNewTokens) +
          Manager.getNumEvictableBlocks state.pool blocks) := by
  obtain ⟨-, missing⟩ := missing_count spec state holds idle asked grows
  have either (generated : Bool) (all some : Int) : ∃ promised,
      (if generated = true then Option.some all else Option.some some) = Option.some promised ∧
        (promised = all ∨ promised = some) := by
    cases generated with
    | true => exact ⟨all, rfl, Or.inl rfl⟩
    | false => exact ⟨some, rfl, Or.inr rfl⟩
  unfold Manager.getNumBlocksToAllocate
  simp only [holds.kind]
  rw [if_neg (not_not_intro holds.align), missing]
  exact either _ _ _

theorem getNumBlocksToAllocate_holds (idle : state.stage = .idle)
    {requestId : ReqId} {blocks : List BlockId}
    {numComputedTokens numNewTokens numTokens totalComputedTokens promised : Int}
    (asked : Asked state requestId blocks numComputedTokens numNewTokens)
    (grows : Grows state requestId (numComputedTokens + numNewTokens))
    (done : state.manager.getNumBlocksToAllocate state.pool requestId numTokens blocks
      totalComputedTokens (numComputedTokens + numNewTokens) = some promised)
    (within : state.pool.getNumFreeBlocks ≤ state.pool.numGpuBlocks)
    (enough : promised ≤ state.pool.getNumFreeBlocks) :
    Holds spec
      { state with
        stage := .promised requestId blocks (numComputedTokens + numNewTokens) promised
          (Manager.getNumEvictableBlocks state.pool blocks) } := by
  obtain ⟨positive, -⟩ := missing_count spec state holds idle asked grows
  obtain ⟨estimate, result, counts⟩ := getNumBlocksToAllocate_counts spec state holds idle asked grows
  obtain rfl : estimate = promised := some.inj (result.symm.trans done)
  constructor
  · exact holds.kind
  · exact holds.align
  · exact holds.positive
  · exact holds.backed
  · exact holds.holding
  · intro other unscheduled _
    exact holds.unscheduled idle other unscheduled
  · refine ⟨positive, ?_, ?_⟩
    · rcases counts with refused | count
      · omega
      · change _ = (drawCount spec state requestId (numComputedTokens + numNewTokens) : Int)
        omega
    · obtain ⟨new, known⟩ := asked
      cases scheduled : state.scheduled requestId with
      | none =>
        rw [scheduled] at known
        obtain ⟨hit, rfl⟩ := known
        refine ⟨hit, ?_⟩
        change (blocks.length * (state.manager.blockSize : Int) : Int) < _
        omega
      | some before => exact grows before scheduled

theorem cacheBlocks_holds {request : Request Digest} {numTokens : Int}
    {pool : Pool Digest} {manager : Manager Digest}
    (done : state.manager.cacheBlocks state.pool request numTokens = some (pool, manager)) :
    Holds spec { state with pool := pool, manager := manager } := by
  obtain ⟨counts, -, tables, total, same⟩ := cacheBlocks_frame done
  have records : manager.allocatedBlockReqs = state.manager.allocatedBlockReqs ∧
      manager.lastStateBlockIdx = state.manager.lastStateBlockIdx := by
    unfold Manager.cacheBlocks at done
    simp only [holds.kind] at done
    obtain ⟨⟨final, middle⟩, base, result⟩ := map_eq_some_iff.mp done
    obtain ⟨-, rfl⟩ := Prod.mk.inj result
    unfold Manager.baseCacheBlocks at base
    simp only at base
    split at base
    · obtain ⟨-, rfl⟩ := Prod.mk.inj (some.inj base)
      exact ⟨rfl, rfl⟩
    · obtain ⟨cached, _, made⟩ := map_eq_some_iff.mp base
      obtain ⟨-, rfl⟩ := Prod.mk.inj made
      exact ⟨rfl, rfl⟩
  apply holds.frame pool manager counts.shape.nullBlock same
  · intro requestId
    constructor
    · exact same.blockSize
    · exact tables requestId
    · rw [records.1]
    · rw [records.2]
  · exact holds.backed.frame counts tables total

theorem allocateNewComputedBlocks_holds {requestId : ReqId}
    {blocks : List BlockId} {numTokensMainModel promised evictable : Int} {pool : Pool Digest}
    {manager : Manager Digest}
    (stage : state.stage = .promised requestId blocks numTokensMainModel promised evictable)
    (fresh : state.scheduled requestId = none)
    (done : state.manager.allocateNewComputedBlocks state.pool requestId blocks
      (blocks.length * (state.manager.blockSize : Int)) 0 = some (pool, manager)) :
    Holds spec
        { state with
          pool := pool
          manager := manager
          stage := .computed requestId numTokensMainModel (promised - evictable) } ∧
      pool.getNumFreeBlocks =
        state.pool.getNumFreeBlocks - Manager.getNumEvictableBlocks state.pool blocks := by
  have pending := holds.pending
  rw [stage] at pending
  obtain ⟨positive, count, known⟩ := pending
  rw [fresh] at known
  obtain ⟨hit, room⟩ := known
  have waiting (other : ReqId) : ¬ Computing state other := by
    rintro ⟨_, _, computing⟩
    rw [stage] at computing
    contradiction
  obtain ⟨backed, shape, same, starting, others, fewer⟩ := allocateNewComputedBlocks_starts holds.kind holds.positive holds.backed (holds.absent requestId fresh (waiting requestId)) hit room done
  refine ⟨?_, fewer⟩
  constructor
  · exact same.kvCacheSpec.trans holds.kind
  · exact holds.align
  · rw [same.blockSize]
    exact holds.positive
  · exact backed
  · intro other before scheduled
    have differs : other ≠ requestId := by
      rintro rfl
      rw [show state.scheduled other = _ from scheduled] at fresh
      contradiction
    obtain ⟨begun, holding⟩ := holds.holding other before scheduled
    rw [← shape.nullBlock] at holding
    exact ⟨begun, holding.frame (others other differs)⟩
  · intro other unscheduled notComputing
    have differs : other ≠ requestId := by
      rintro rfl
      exact notComputing ⟨_, _, rfl⟩
    exact (holds.absent other unscheduled (waiting other)).frame (others other differs)
  · refine ⟨positive, ?_, ?_⟩
    · rw [count]
      unfold drawCount
      simp only [fresh]
    · simp only [fresh]
      exact starting

end

omit [DecidableEq Digest] in
theorem withoutComputedBlocks_holds (holds : Holds spec state) {requestId : ReqId}
    {numTokensMainModel promised evictable : Int}
    (stage : state.stage = .promised requestId [] numTokensMainModel promised evictable) :
    Holds spec
      { state with stage := .computed requestId numTokensMainModel (promised - evictable) } := by
  have pending := holds.pending
  rw [stage] at pending
  obtain ⟨positive, count, known⟩ := pending
  have waiting (other : ReqId) : ¬ Computing state other := by
    rintro ⟨_, _, computing⟩
    rw [stage] at computing
    contradiction
  constructor
  · exact holds.kind
  · exact holds.align
  · exact holds.positive
  · exact holds.backed
  · exact holds.holding
  · exact fun other unscheduled _ => holds.absent other unscheduled (waiting other)
  · refine ⟨positive, count, ?_⟩
    cases scheduled : state.scheduled requestId with
    | none =>
      have absent := holds.absent requestId scheduled (waiting requestId)
      constructor
      · exact absent.allocated
      · exact absent.last
      · rw [absent.blocks]
        exact (lt_cdiv_iff numTokensMainModel 0 holds.positive).mpr (by omega)
    | some before =>
      rw [scheduled] at known
      exact known

/-- The allocation draws what is still owed. -/
theorem computed_draws (holds : Holds spec state) {requestId : ReqId}
    {numTokensMainModel owed : Int}
    (stage : state.stage = .computed requestId numTokensMainModel owed) :
    0 < numTokensMainModel ∧ owed = drawCount spec state requestId numTokensMainModel ∧
      Draws spec state.pool state.manager requestId numTokensMainModel
        (drawCount spec state requestId numTokensMainModel) := by
  have pending := holds.pending
  rw [stage] at pending
  obtain ⟨positive, count, known⟩ := pending
  refine ⟨positive, count, ?_⟩
  unfold drawCount
  cases scheduled : state.scheduled requestId with
  | none =>
    rw [scheduled] at known
    exact draws_first spec state.pool holds.backed known
  | some before =>
    rw [scheduled] at known
    obtain ⟨-, holding⟩ := holds.holding requestId before scheduled
    exact draws_again spec state.pool holds.backed holding known

theorem allocateNewBlocks_align {manager : Manager Digest} {pool : Pool Digest}
    (kind : manager.kvCacheSpec = .mamba spec) (align : spec.mambaCacheMode = .align)
    (requestId : ReqId) (numTokens numTokensMainModel : Int) :
    manager.allocateNewBlocks pool requestId numTokens numTokensMainModel =
      manager.alignAllocateNewBlocks spec pool requestId numTokensMainModel := by
  unfold Manager.allocateNewBlocks
  simp only [kind]
  rw [if_neg (not_not_intro align)]

theorem allocateNewBlocks_holds (holds : Holds spec state) {requestId : ReqId}
    {numTokensMainModel owed numTokens : Int} {newBlocks : List BlockId} {pool : Pool Digest}
    {manager : Manager Digest} (stage : state.stage = .computed requestId numTokensMainModel owed)
    (done : state.manager.allocateNewBlocks state.pool requestId numTokens numTokensMainModel =
      some (newBlocks, pool, manager)) :
    Holds spec
      { pool := pool
        manager := manager
        scheduled := Function.update state.scheduled requestId (some numTokensMainModel)
        stage := .idle } := by
  obtain ⟨positive, -, draws⟩ := computed_draws spec state holds stage
  rw [allocateNewBlocks_align spec holds.kind holds.align] at done
  obtain ⟨-, holding, others⟩ := draws.holds newBlocks pool manager done
  obtain ⟨arranged, ids, allocation⟩ := alignAllocateNewBlocks_cases done
  obtain ⟨turn, -⟩ := allocation.turn (holds.backed.ready requestId)
  have null := turn.moved.shape.nullBlock
  constructor
  · exact turn.same.kvCacheSpec.trans holds.kind
  · exact holds.align
  · rw [turn.same.blockSize]
    exact holds.positive
  · exact holds.backed.turn turn
  · intro other before known
    change update state.scheduled requestId (some numTokensMainModel) other = some before
      at known
    rw [null]
    by_cases here : other = requestId
    · subst here
      rw [update_self] at known
      obtain rfl := some.inj known
      exact ⟨positive, holding⟩
    · rw [update_of_ne here] at known
      obtain ⟨begun, held⟩ := holds.holding other before known
      exact ⟨begun, held.frame (others other here)⟩
  · intro other unknown _
    change update state.scheduled requestId (some numTokensMainModel) other = none at unknown
    by_cases here : other = requestId
    · subst here
      rw [update_self] at unknown
      contradiction
    · rw [update_of_ne here] at unknown
      apply Absent.frame _ (others other here)
      apply holds.absent other unknown
      rintro ⟨_, _, computing⟩
      rw [stage] at computing
      exact here (Stage.computed.inj computing).1.symm
  · trivial

/-- Every call keeps what is known of the group. -/
theorem step_holds (state' : State Digest) (call : Call Digest) (holds : Holds spec state)
    (step : Step state call state') (steady : Steady state call) :
    Holds spec state' := by
  cases step with
  | elsewhere pool shape backed =>
    exact holds.frame pool state.manager shape.nullBlock (SameManager.refl state.manager)
      (fun requestId => unmoved_refl) backed
  | removeSkippedBlocks requestId totalComputedTokens pool manager idle computed done =>
    exact removeSkippedBlocks_holds spec state holds idle computed done
  | getNumBlocksToAllocate requestId blocks numComputedTokens numNewTokens numTokens
      totalComputedTokens promised idle asked done within enough =>
      exact getNumBlocksToAllocate_holds spec state holds idle asked steady done within enough
  | allocateNewComputedBlocks requestId blocks numTokensMainModel promised evictable pool manager
      stage fresh done =>
      exact (allocateNewComputedBlocks_holds spec state holds stage fresh done).1
  | withoutComputedBlocks requestId numTokensMainModel promised evictable stage =>
    exact withoutComputedBlocks_holds spec state holds stage
  | allocateNewBlocks requestId numTokensMainModel owed numTokens newBlocks pool manager stage
      done =>
      exact allocateNewBlocks_holds spec state holds stage done
  | cacheBlocks request numTokens pool manager idle done =>
    exact cacheBlocks_holds spec state holds done
  | free requestId pool manager idle done =>
    exact free_holds spec state holds idle done
  | newStepStarts idle =>
    apply holds.frame state.pool state.manager.newStepStarts rfl ⟨rfl, rfl, rfl, rfl⟩
    · exact fun requestId => ⟨rfl, rfl, Iff.rfl, rfl⟩
    · exact holds.backed.frame (SameCounts.refl state.pool) (fun _ => rfl) fun _ => rfl

/-! Runs. -/

/-- Calls that all are as `allowed` says. -/
def Run (allowed : State Digest → Call Digest → Prop) : State Digest → State Digest → Prop :=
  Relation.ReflTransGen fun before after => ∃ call, Step before call after ∧ allowed before call

/-- The estimate is never negative, the allocation after it draws what was promised and does not
fail, and the table then ends with the running state and the speculative blocks. -/
structure Kept (spec : MambaSpec) (allowed : State Digest → Call Digest → Prop)
    (state : State Digest) : Prop where
  promises : ∀ requestId blocks numComputedTokens numNewTokens numTokens totalComputedTokens,
    state.stage = .idle → Asked state requestId blocks numComputedTokens numNewTokens →
      allowed state
          (.getNumBlocksToAllocate requestId blocks numComputedTokens numNewTokens) →
        ∃ promised, state.manager.getNumBlocksToAllocate state.pool requestId numTokens blocks
          totalComputedTokens (numComputedTokens + numNewTokens) = some promised ∧ 0 ≤ promised
  shares : ∀ requestId blocks numTokensMainModel promised evictable,
    state.stage = .promised requestId blocks numTokensMainModel promised evictable →
      state.scheduled requestId = none → ∀ pool manager,
        state.manager.allocateNewComputedBlocks state.pool requestId blocks
            (blocks.length * (state.manager.blockSize : Int)) 0 = some (pool, manager) →
          pool.getNumFreeBlocks =
            state.pool.getNumFreeBlocks - Manager.getNumEvictableBlocks state.pool blocks
  required : ∀ requestId numTokensMainModel owed,
    state.stage = .computed requestId numTokensMainModel owed →
      ((state.manager.blocksOf requestId).length : Int) ≤
        cdiv numTokensMainModel state.manager.blockSize + spec.numSpeculativeBlocks
  succeeds : ∀ requestId numTokensMainModel owed,
    state.stage = .computed requestId numTokensMainModel owed →
      owed ≤ state.pool.getNumFreeBlocks → ∀ numTokens, ∃ outcome,
        state.manager.allocateNewBlocks state.pool requestId numTokens numTokensMainModel =
          some outcome
  draws : ∀ requestId numTokensMainModel owed,
    state.stage = .computed requestId numTokensMainModel owed →
      ∀ numTokens newBlocks pool manager,
        state.manager.allocateNewBlocks state.pool requestId numTokens numTokensMainModel =
            some (newBlocks, pool, manager) →
          pool.getNumFreeBlocks = state.pool.getNumFreeBlocks - owed ∧
            EndsDistinct state.pool.nullBlock (1 + spec.numSpeculativeBlocks)
              (manager.blocksOf requestId)
  ends : ∀ requestId, (state.scheduled requestId).isSome →
    EndsDistinct state.pool.nullBlock (1 + spec.numSpeculativeBlocks)
      (state.manager.blocksOf requestId)

theorem Holds.kept {spec : MambaSpec} {state : State Digest} (holds : Holds spec state) :
    Kept spec Steady state := by
  constructor
  · intro requestId blocks numComputedTokens numNewTokens numTokens totalComputedTokens idle asked
      grows
    obtain ⟨promised, result, counts⟩ := getNumBlocksToAllocate_counts spec state holds idle asked grows
    refine ⟨promised, result, ?_⟩
    rcases counts with refused | count
    · omega
    · omega
  · intro requestId blocks numTokensMainModel promised evictable stage fresh pool manager done
    exact (allocateNewComputedBlocks_holds spec state holds stage fresh done).2
  · intro requestId numTokensMainModel owed stage
    exact (computed_draws spec state holds stage).2.2.required
  · intro requestId numTokensMainModel owed stage enough numTokens
    obtain ⟨-, rfl, draws⟩ := computed_draws spec state holds stage
    rw [allocateNewBlocks_align spec holds.kind holds.align]
    exact draws.succeeds enough
  · intro requestId numTokensMainModel owed stage numTokens newBlocks pool manager done
    obtain ⟨-, rfl, draws⟩ := computed_draws spec state holds stage
    rw [allocateNewBlocks_align spec holds.kind holds.align] at done
    obtain ⟨fewer, holding, -⟩ := draws.holds newBlocks pool manager done
    exact ⟨fewer, holding.ends⟩
  · intro requestId scheduled
    obtain ⟨before, known⟩ := isSome_iff_exists.mp scheduled
    exact (holds.holding requestId before known).2.ends

theorem run_holds (first last : State Digest) (holds : Holds spec first)
    (run : Run Steady first last) : Holds spec last := by
  induction run with
  | refl => exact holds
  | tail _ next ih =>
    obtain ⟨call, step, steady⟩ := next
    exact step_holds spec _ _ call ih step steady

theorem Run.mono {allowed allowed' : State Digest → Call Digest → Prop} {first last : State Digest}
    (run : Run allowed first last) (weaker : ∀ state call, allowed state call → allowed' state call) :
    Run allowed' first last := by
  induction run with
  | refl => exact Relation.ReflTransGen.refl
  | tail _ next ih =>
    obtain ⟨call, step, permitted⟩ := next
    exact ih.tail ⟨call, step, weaker _ call permitted⟩

/-- The calls of `allocate_slots` for a request without hits. -/
theorem slots_run {requestId : ReqId}
    (numComputedTokens numNewTokens numTokens totalComputedTokens promised : Int)
    {slots : List BlockId × Pool Digest × Manager Digest} (idle : state.stage = .idle)
    (asked : Asked state requestId [] numComputedTokens numNewTokens)
    (grows : Grows state requestId (numComputedTokens + numNewTokens))
    (estimated : state.manager.getNumBlocksToAllocate state.pool requestId numTokens []
      totalComputedTokens (numComputedTokens + numNewTokens) = some promised)
    (within : state.pool.getNumFreeBlocks ≤ state.pool.numGpuBlocks)
    (enough : promised ≤ state.pool.getNumFreeBlocks)
    (allocated : state.manager.allocateNewBlocks state.pool requestId numTokens
      (numComputedTokens + numNewTokens) = some slots) :
    Run Steady state
      ⟨slots.2.1, slots.2.2,
        Function.update state.scheduled requestId (some (numComputedTokens + numNewTokens)),
        .idle⟩ := by
  have promise := Step.getNumBlocksToAllocate requestId [] numComputedTokens numNewTokens numTokens
    totalComputedTokens promised idle asked estimated within enough
  apply Relation.ReflTransGen.head ⟨_, promise, grows⟩
  apply Relation.ReflTransGen.head
    ⟨_, .withoutComputedBlocks requestId (numComputedTokens + numNewTokens) promised _ rfl, trivial⟩
  exact Relation.ReflTransGen.single
    ⟨_, .allocateNewBlocks requestId (numComputedTokens + numNewTokens) _ numTokens slots.1 slots.2.1
      slots.2.2 rfl allocated, trivial⟩

def start (pool : Pool Digest) (manager : Manager Digest) : State Digest :=
  ⟨pool, manager, fun _ => none, .idle⟩

omit [DecidableEq Digest] in
theorem start_holds (align : spec.mambaCacheMode = .align) (enableCaching : Bool)
    (groupId dcpWorldSize pcpWorldSize : Nat)
    (positive : 0 < spec.blockSize * (dcpWorldSize * pcpWorldSize)) (pool : Pool Digest)
    (queue : ∃ free, Queued pool free) (refs : ∀ block, 0 ≤ (pool.blocks block).refCnt)
    (manager : Manager Digest)
    (made : Manager.init pool (.mamba spec) enableCaching groupId dcpWorldSize pcpWorldSize =
      some (pool, manager)) : Holds spec (start pool manager) := by
  obtain rfl := (Prod.mk.inj (some.inj made)).2
  constructor
  · rfl
  · exact align
  · exact positive
  · constructor
    · exact queue
    · exact fun requestId block _ => Nat.zero_le 1
    · exact fun block _ => refs block
  · intro requestId before impossible
    contradiction
  · exact fun requestId _ _ => ⟨rfl, not_mem_nil, rfl⟩
  · trivial

/-- In every run in which no allocation needs fewer blocks than the one before it, the group keeps
its promises in every state. -/
theorem alignRun_kept (spec : MambaSpec) (align : spec.mambaCacheMode = .align)
    (enableCaching : Bool) (groupId dcpWorldSize pcpWorldSize : Nat)
    (positive : 0 < spec.blockSize * (dcpWorldSize * pcpWorldSize)) (pool : Pool Digest)
    (queue : ∃ free, Queued pool free) (refs : ∀ block, 0 ≤ (pool.blocks block).refCnt)
    (manager : Manager Digest)
    (made : Manager.init pool (.mamba spec) enableCaching groupId dcpWorldSize pcpWorldSize =
      some (pool, manager)) (state : State Digest) (run : Run Steady (start pool manager) state) :
    Kept spec Steady state :=
  (run_holds spec _ state (start_holds spec align enableCaching groupId dcpWorldSize pcpWorldSize
    positive pool queue refs manager made) run).kept

end

/-! A prompt of two tokens and then one token with three drafts, all of them rejected. -/

def draftSpec : MambaSpec := ⟨4, [[8]], [⟨"float32", 4⟩], none, "mamba2", .align, 3⟩

def draftPool : Pool Nat := (Pool.init 20 false 4 false).get rfl

def draftManager : Manager Nat :=
  ((Manager.init draftPool (.mamba draftSpec) false 0 1 1).get rfl).2

def promptSlots : List BlockId × Pool Nat × Manager Nat :=
  (draftManager.allocateNewBlocks draftPool 1 2 2).get rfl

def draftSlots : List BlockId × Pool Nat × Manager Nat :=
  (promptSlots.2.2.allocateNewBlocks promptSlots.2.1 1 9 6).get rfl

def promptState : State Nat :=
  ⟨promptSlots.2.1, promptSlots.2.2, Function.update (fun _ => none) 1 (some 2), .idle⟩

def draftState : State Nat :=
  ⟨draftSlots.2.1, draftSlots.2.2, Function.update promptState.scheduled 1 (some 6), .idle⟩

example : draftSlots.2.2.blocksOf 1 = [1, 2, 3, 4, 5] := by decide +kernel

theorem promptSlots_allocated :
    draftManager.allocateNewBlocks draftPool 1 2 2 = some promptSlots := (some_get _).symm

theorem draftSlots_allocated :
    promptSlots.2.2.allocateNewBlocks promptSlots.2.1 1 9 6 = some draftSlots :=
  (some_get _).symm

theorem promptState_run : Run Steady (start draftPool draftManager) promptState := by
  have grows : Grows (start draftPool draftManager) 1 (0 + 2) := by
    intro before impossible
    contradiction
  exact slots_run (start draftPool draftManager) 0 2 2 0 4 rfl
    ⟨by decide, .nothing, rfl⟩ grows (by decide +kernel) (by decide +kernel) (by decide +kernel)
    promptSlots_allocated

theorem draftState_run : Run Steady (start draftPool draftManager) draftState := by
  have grows : Grows promptState 1 (2 + 4) := by
    intro before known
    obtain rfl : 2 = before := some.inj known
    decide +kernel
  apply promptState_run.trans
  exact slots_run promptState 2 4 9 2 1 rfl ⟨by decide, rfl, by decide, by decide⟩ grows
    (by decide +kernel) (by decide +kernel) (by decide +kernel) draftSlots_allocated

theorem draftState_kept : Kept draftSpec Steady draftState :=
  alignRun_kept draftSpec rfl false 0 1 1 (by decide) draftPool
    (counted_queued draftPool _ _
      (init_counted 20 4 false false draftPool (some_get _).symm).2.1)
    (fun _ => Int.le_refl 0) draftManager rfl draftState draftState_run

/-- After the drafts are rejected a single token needs one block less: the estimate is negative,
and the allocation fails. -/
theorem rejectedDrafts_not_kept :
    Run (fun _ _ => True) (start draftPool draftManager) draftState ∧
      ¬ Kept draftSpec (fun _ _ => True) draftState ∧
      draftState.manager.allocateNewBlocks draftState.pool 1 4 4 = none := by
  refine ⟨draftState_run.mono fun _ _ _ => trivial, fun kept => ?_, ?_⟩
  · have asked : Asked draftState 1 [] 3 1 := ⟨by decide, rfl, by decide, by decide⟩
    obtain ⟨promised, estimated, nonneg⟩ := kept.promises 1 [] 3 1 4 3 rfl asked trivial
    have estimate : draftState.manager.getNumBlocksToAllocate draftState.pool 1 4 [] 3 (3 + 1) =
        some (-1) := by decide +kernel
    obtain rfl := some.inj (estimate.symm.trans estimated)
    contradiction
  · decide +kernel

end VllmDcu.AlignRuns

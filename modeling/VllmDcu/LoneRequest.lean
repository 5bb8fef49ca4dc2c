import VllmDcu.PoolInvariant
import Mathlib.Algebra.Order.BigOperators.Group.List
import Mathlib.Algebra.Order.Ring.Nat
import Mathlib.Algebra.BigOperators.Ring.Finset

/-! A request alone in the cache: every table but its own is empty, so each group
holds its blocks for itself and the free blocks can be counted. A call that does
its part for one manager does it for all of them. -/
namespace VllmDcu.LoneRequest
open Requests FreeBlockQueue BlockPool KVCacheInterface SingleTypeManager CacheManager
open PoolCache PoolAccounts TableAccounts PoolInvariant List

variable {Digest : Type}

/-- Only one request has blocks. -/
def Lone (manager : Manager Digest) (requestId : ReqId) : Prop :=
  ∀ block, occurrences manager block = (manager.blocksOf requestId).count block

/-- The blocks behind the cached ones carry no hash yet. -/
def Unhashed (pool : Pool Digest) (manager : Manager Digest) (requestId : ReqId) : Prop :=
  ∀ index block, (manager.numCachedBlock.get? requestId).getD 0 ≤ index →
    (manager.blocksOf requestId)[index]? = some block → block ≠ pool.nullBlock →
      (pool.blocks block).blockHash = none

/-- No block is referenced twice, counting the references of the rest. -/
def Exclusive (pool : Pool Digest) (refs : BlockId → Nat) : Prop :=
  ∀ block, block ≠ pool.nullBlock → refs block ≤ 1

/-- What one manager contributes. -/
structure Seated (caching : Bool) (requestId : ReqId) (pool : Pool Digest)
    (manager : Manager Digest) (rest : BlockId → Nat) : Prop where
  sound : Sound pool manager rest
  exclusive : Exclusive pool fun block => occurrences manager block + rest block
  lone : Lone manager requestId
  unhashed : caching = true → Unhashed pool manager requestId

/-- What all managers together keep. -/
structure Alone (caching : Bool) (requestId : ReqId) (pool : Pool Digest)
    (managers : List (Manager Digest)) (rest : BlockId → Nat) : Prop where
  balanced : Balanced pool managers rest
  exclusive : Exclusive pool fun block => references managers block + rest block
  lone : ∀ manager ∈ managers, Lone manager requestId
  unhashed : caching = true → ∀ manager ∈ managers, Unhashed pool manager requestId

/-- Blocks outside the tables get no hash. -/
def KeepsBare (pool pool' : Pool Digest) (refs : BlockId → Nat) : Prop :=
  ∀ block, block ≠ pool.nullBlock → refs block = 0 → (pool.blocks block).blockHash = none →
    (pool'.blocks block).blockHash = none

/-- One manager's turn. -/
structure Turn (caching : Bool) (requestId : ReqId) (pool pool' : Pool Digest)
    (manager manager' : Manager Digest) (rest : BlockId → Nat) : Prop where
  seated : Seated caching requestId pool' manager' rest
  shape : SameShape pool pool'
  same : SameManager manager manager'
  bare : caching = true → KeepsBare pool pool' (occurrences manager)

theorem references_cons (manager : Manager Digest) (managers : List (Manager Digest))
    (block : BlockId) : references (manager :: managers) block =
      occurrences manager block + references managers block := by
  rfl

theorem occurrences_le_references (manager : Manager Digest) (managers : List (Manager Digest))
    (member : manager ∈ managers) (block : BlockId) :
    occurrences manager block ≤ references managers block :=
  single_le_sum (fun _ _ => Nat.zero_le _) _ (mem_map_of_mem member)

variable (caching : Bool) (requestId : ReqId) (pool : Pool Digest)

theorem alone_cons (manager : Manager Digest) (managers : List (Manager Digest))
    (rest : BlockId → Nat) (alone : Alone caching requestId pool (manager :: managers) rest) :
    Seated caching requestId pool manager fun block => references managers block + rest block := by
  constructor
  · exact ((balanced_cons pool manager managers rest).mp alone.balanced).1
  · intro block real
    have := alone.exclusive block real
    simp only [references_cons] at this ⊢
    omega
  · exact alone.lone manager mem_cons_self
  · exact fun on => alone.unhashed on manager mem_cons_self

/-- After a manager's turn it belongs to the rest of the managers that follow. -/
theorem alone_tail (pool' : Pool Digest) (manager manager' : Manager Digest)
    (managers : List (Manager Digest)) (rest : BlockId → Nat)
    (alone : Alone caching requestId pool (manager :: managers) rest)
    (turn : Turn caching requestId pool pool' manager manager'
      fun block => references managers block + rest block) :
    Alone caching requestId pool' managers fun block => occurrences manager' block + rest block := by
  have null := turn.shape.nullBlock
  constructor
  · constructor
    · exact turn.seated.sound.hashed
    · apply counted_congr pool' _ _ _ _ turn.seated.sound.counted
      · omega
      · simp
    · intro other member requestId
      rw [null]
      exact alone.balanced.single other (mem_cons_of_mem _ member) requestId
  · intro block real
    have := turn.seated.exclusive block real
    simp only at this ⊢
    omega
  · exact fun other member => alone.lone other (mem_cons_of_mem _ member)
  · intro on other member index block cached entry real
    rw [null] at real
    have inside := mem_of_getElem? entry
    have here := count_pos_iff.mpr inside
    have most := alone.exclusive block real
    -- the block is in another table, so it is not in the one that changed
    have elsewhere : occurrences manager block = 0 := by
      have one := occurrences_le other requestId block
      have among := occurrences_le_references other managers member block
      simp only [references_cons] at most
      omega
    exact turn.bare on block real elsewhere
      (alone.unhashed on other (mem_cons_of_mem _ member) index block cached entry real)

theorem alone_join (pool' : Pool Digest) (manager : Manager Digest)
    (managers managers' : List (Manager Digest)) (rest refs : BlockId → Nat)
    (seated : Seated caching requestId pool manager refs) (shape : SameShape pool pool')
    (alone : Alone caching requestId pool' managers'
      fun block => occurrences manager block + rest block)
    (apart : ∀ block, block ≠ pool.nullBlock → 0 < occurrences manager block →
      references managers block = 0)
    (bare : caching = true → KeepsBare pool pool' (references managers)) :
    Alone caching requestId pool' (manager :: managers') rest := by
  constructor
  · rw [balanced_cons]
    constructor
    · constructor
      · exact alone.balanced.hashed
      · apply counted_congr pool' _ _ _ _ alone.balanced.counted
        · omega
        · simp
      · intro other
        rw [shape.nullBlock]
        exact seated.sound.single other
    · exact alone.balanced.single
  · intro block real
    have := alone.exclusive block real
    simp only [references_cons] at this ⊢
    omega
  · intro other member
    rcases mem_cons.mp member with rfl | inRest
    · exact seated.lone
    · exact alone.lone other inRest
  · intro on other member
    rcases mem_cons.mp member with rfl | inRest
    · intro index block cached entry real
      rw [shape.nullBlock] at real
      have inside := count_pos_iff.mpr (mem_of_getElem? entry)
      have used := occurrences_le other requestId block
      exact bare on block real (apart block real (by omega))
        (seated.unhashed on index block cached entry real)
    · exact alone.unhashed on other inRest

/-- A call that takes a manager from `before` to `after` takes all of them there;
`enough` is what the pool must still provide for the managers that follow. -/
theorem mapManagers_alone {Result : Type} (caching : Bool) (requestId : ReqId)
    (call : Pool Digest → Manager Digest → Option (Result × Pool Digest × Manager Digest))
    (before after : Manager Digest → Prop) (enough : Pool Digest → List (Manager Digest) → Prop)
    (base pool : Pool Digest) (managers : List (Manager Digest)) (rest : BlockId → Nat)
    (turns : ∀ manager ∈ managers, ∀ pool todo rest, SameShape base pool → before manager →
      enough pool (manager :: todo) → Seated caching requestId pool manager rest →
        ∃ result pool' manager', call pool manager = some (result, pool', manager') ∧
          Turn caching requestId pool pool' manager manager' rest ∧ after manager' ∧
            enough pool' todo)
    (shape : SameShape base pool) (ready : ∀ manager ∈ managers, before manager)
    (provided : enough pool managers) (alone : Alone caching requestId pool managers rest) :
    ∃ results pool' managers', mapManagers call pool managers = some (results, pool', managers') ∧
      Alone caching requestId pool' managers' rest ∧ (∀ manager ∈ managers', after manager) ∧
        SameShape pool pool' ∧ List.Forall₂ SameManager managers managers' ∧
          (caching = true → KeepsBare pool pool' (references managers)) := by
  induction managers generalizing pool rest with
  | nil =>
    refine ⟨[], pool, [], rfl, alone, by simp, SameShape.refl pool, Forall₂.nil, ?_⟩
    exact fun _ _ _ _ none => none
  | cons manager managers ih =>
    obtain ⟨result, pool₁, manager₁, called, turn, done, left⟩ :=
      turns manager mem_cons_self pool managers _ shape (ready manager mem_cons_self)
        provided (alone_cons caching requestId pool manager managers rest alone)
    obtain ⟨results, pool', managers', mapped, alone', finished, shape', same, bare⟩ :=
      ih pool₁ _ (fun other member => turns other (mem_cons_of_mem _ member))
        (shape.trans turn.shape) (fun other member => ready other (mem_cons_of_mem _ member))
        left (alone_tail caching requestId pool pool₁ manager manager₁ managers rest alone turn)
    refine ⟨result :: results, pool', manager₁ :: managers', ?_, ?_, ?_,
      turn.shape.trans shape', Forall₂.cons turn.same same, ?_⟩
    · simp only [mapManagers, called, mapped, Option.map_some]
    · apply alone_join caching requestId pool₁ pool' manager₁ managers managers' rest _ turn.seated
        shape' alone' _ bare
      intro block real used
      have := turn.seated.exclusive block real
      simp only at this
      omega
    · intro other member
      rcases mem_cons.mp member with rfl | inRest
      · exact done
      · exact finished other inRest
    · intro on block real unused none
      rw [references_cons] at unused
      have first := turn.bare on block real (by omega) none
      exact bare on block (turn.shape.nullBlock ▸ real) (by omega) first

/-! Counting the free blocks. -/

def liveBlocks (nullBlock : BlockId) (manager : Manager Digest) (requestId : ReqId) : List BlockId :=
  (manager.blocksOf requestId).filter fun block => decide (block ≠ nullBlock)

theorem liveBlocks_count {nullBlock : BlockId} {managers : List (Manager Digest)}
    {requestId : ReqId} (lone : ∀ manager ∈ managers, Lone manager requestId) {block : BlockId}
    (real : block ≠ nullBlock) :
    (managers.flatMap fun manager => liveBlocks nullBlock manager requestId).count block =
      references managers block := by
  induction managers with
  | nil => rfl
  | cons manager managers ih =>
    have rest := ih fun other member => lone other (mem_cons_of_mem _ member)
    have here := lone manager mem_cons_self block
    rw [flatMap_cons, count_append, rest, references_cons, here, liveBlocks,
      count_filter (by simpa using real)]

/-- Every block is free, held once, or the null block. -/
theorem blocks_perm (managers : List (Manager Digest))
    (alone : Alone caching requestId pool managers fun _ => 0)
    (nullInside : pool.nullBlock < pool.numGpuBlocks) (free : List BlockId) (distinct : free.Nodup)
    (mem : ∀ block, block ∈ free ↔ block < pool.numGpuBlocks ∧ block ≠ pool.nullBlock ∧
      references managers block = 0) :
    (free ++ pool.nullBlock ::
        managers.flatMap fun manager => liveBlocks pool.nullBlock manager requestId).Perm
      (List.range pool.numGpuBlocks) := by
  let live := managers.flatMap fun manager => liveBlocks pool.nullBlock manager requestId
  have nullFree : pool.nullBlock ∉ free := fun inFree => ((mem _).mp inFree).2.1 rfl
  have nullLive : pool.nullBlock ∉ live := by
    simp [live, liveBlocks]
  have held (block : BlockId) (real : block ≠ pool.nullBlock) :
      live.count block = references managers block :=
    liveBlocks_count alone.lone real
  have inLive (block : BlockId) :
      block ∈ live ↔ block ≠ pool.nullBlock ∧ 0 < references managers block := by
    rw [← count_pos_iff]
    by_cases real : block = pool.nullBlock
    · rw [real, count_eq_zero.mpr nullLive]
      simp
    · rw [held block real]
      simp [real]
  have liveDistinct : live.Nodup := by
    rw [nodup_iff_count_le_one]
    intro block
    by_cases real : block = pool.nullBlock
    · rw [real, count_eq_zero.mpr nullLive]
      exact Nat.zero_le 1
    · rw [held block real]
      have := alone.exclusive block real
      omega
  apply (perm_ext_iff_of_nodup _ nodup_range).mpr
  · intro block
    rw [mem_append, mem_cons, mem block, inLive block, mem_range]
    by_cases real : block = pool.nullBlock
    · simp [real, nullInside]
    · have inside := alone.balanced.counted.inside block real
      constructor
      · rintro (⟨within, _⟩ | null | ⟨_, used⟩)
        · exact within
        · exact absurd null real
        · exact inside (by omega)
      · intro within
        rcases Nat.eq_zero_or_pos (references managers block) with unused | used
        · exact Or.inl ⟨within, real, unused⟩
        · exact Or.inr (Or.inr ⟨real, used⟩)
  · apply nodup_append.mpr
    refine ⟨distinct, nodup_cons.mpr ⟨nullLive, liveDistinct⟩, ?_⟩
    rintro block inFree other inRest rfl
    rcases mem_cons.mp inRest with null | held
    · exact nullFree (null ▸ inFree)
    · have unused := ((mem block).mp inFree).2.2
      have used := ((inLive block).mp held).2
      omega

theorem free_count (managers : List (Manager Digest))
    (alone : Alone caching requestId pool managers fun _ => 0)
    (nullInside : pool.nullBlock < pool.numGpuBlocks) :
    pool.getNumFreeBlocks +
        (managers.map fun manager =>
          ((liveBlocks pool.nullBlock manager requestId).length : Int)).sum + 1 =
      pool.numGpuBlocks := by
  obtain ⟨free, holds, mem⟩ := alone.balanced.counted.queue
  have perm := blocks_perm caching requestId pool managers alone nullInside free
    holds.represents.distinct (by simpa using mem)
  have length := perm.length_eq
  rw [length_append, length_cons, length_range, length_flatMap] at length
  have casted : (managers.map fun manager =>
      ((liveBlocks pool.nullBlock manager requestId).length : Int)).sum =
        ((managers.map fun manager =>
          (liveBlocks pool.nullBlock manager requestId).length).sum : Nat) := by
    rw [Nat.cast_list_sum, map_map]
    rfl
  rw [Pool.getNumFreeBlocks, holds.count]
  omega

end VllmDcu.LoneRequest

import VllmDcu.ArcOffloading

/-! When `prepare_store` refuses. The LRU manager counts its victims before it evicts one; the ARC
manager evicts as it searches, and looks at T1 only while T1 has its target size. -/
namespace VllmDcu.Offloading
open ARCOffloadingManager List Option

variable {Hash : Type} [DecidableEq Hash]

/-- Blocks that nobody uses and that the call does not ask for. -/
def isIdle (isProtected : List Hash) (entry : Hash × BlockStatus) : Bool :=
  decide (entry.2.refCnt = 0 ∧ entry.1 ∉ isProtected)

def idleCount (isProtected : List Hash) (blocks : Dict Hash BlockStatus) : Nat :=
  blocks.entries.countP (isIdle isProtected)

def numBlocksToEvict (self : ARCOffloadingManager Hash) (blockHashes : List Hash) : Int :=
  ((blockHashes.filter fun blockHash =>
    !self.t1.contains blockHash && !self.t2.contains blockHash).length : Int) -
      self.backend.getNumFreeBlocks

/-- It refuses only with too few victims, and then nothing has changed. -/
structure RefusesCleanly (self : ARCOffloadingManager Hash) (blockHashes : List Hash) : Prop where
  refuses : (∃ next, self.prepareStore blockHashes = some (next, none)) ↔
    ((idleCount blockHashes self.t1 + idleCount blockHashes self.t2 : Nat) : Int) <
      numBlocksToEvict self blockHashes
  unchanged : ∀ next, self.prepareStore blockHashes = some (next, none) → next = self

/-- The turns in which T1 has its target size, if each evicts from it. -/
def turnsOfT1 (self : ARCOffloadingManager Hash) : Nat :=
  ((self.t1.entries.length : Int) - ⌊self.targetT1Size⌋ + 1).toNat

/-- The victims that the loop can reach. -/
def reachable (isProtected : List Hash) (self : ARCOffloadingManager Hash) : Nat :=
  min (idleCount isProtected self.t1) (turnsOfT1 self) + idleCount isProtected self.t2

/-! The LRU manager. -/

variable (isProtected : List Hash)

theorem selectEvictions_none_iff (count : Nat) (entries : List (Hash × BlockStatus)) :
    LRUOffloadingManager.selectEvictions isProtected count entries = none ↔
      entries.countP (isIdle isProtected) < count := by
  induction entries generalizing count with
  | nil => cases count with
    | zero => simp [LRUOffloadingManager.selectEvictions]
    | succ count => simp [LRUOffloadingManager.selectEvictions]
  | cons entry rest ih => cases count with
    | zero => simp [LRUOffloadingManager.selectEvictions]
    | succ count =>
      obtain ⟨blockHash, block⟩ := entry
      rw [LRUOffloadingManager.selectEvictions]
      by_cases idle : block.refCnt = 0 ∧ blockHash ∉ isProtected
      · have counted : isIdle isProtected (blockHash, block) = true := decide_eq_true idle
        rw [if_pos idle, map_eq_none_iff, ih, countP_cons_of_pos counted]
        omega
      · have skipped : ¬ isIdle isProtected (blockHash, block) = true := by
          rw [isIdle, decide_eq_true_iff]
          exact idle
        rw [if_neg idle, ih, countP_cons_of_neg skipped]

/-- It refuses only with too few victims, and changes nothing then. -/
theorem lru_refuses_iff (self next : LRUOffloadingManager Hash) (blockHashes : List Hash) :
    self.prepareStore blockHashes = some (next, none) ↔ next = self ∧
      idleCount blockHashes self.blocks <
        (blockHashes.filter fun blockHash => !self.blocks.contains blockHash).length -
          self.backend.getNumFreeBlocks := by
  have selected := selectEvictions_none_iff blockHashes
  unfold LRUOffloadingManager.prepareStore idleCount
  rw [← selected]
  simp only
  split
  · rename_i refused
    rw [refused]
    simp [eq_comm]
  · rename_i toEvict chosen
    rw [chosen]
    split
    · simp
    · simp [LRUOffloadingManager.storeNew]

/-! Taking one victim. -/

theorem remove_perm {Value : Type} {entries : List (Hash × Value)} {key : Hash} {value : Value}
    (unique : (entries.map Prod.fst).Nodup) (member : (key, value) ∈ entries) :
    entries.Perm ((key, value) :: Dict.remove entries key) := by
  induction entries with
  | nil => cases member
  | cons entry rest ih =>
    obtain ⟨fresh, uniqueRest⟩ := nodup_cons.mp unique
    rcases mem_cons.mp member with rfl | inRest
    · have kept : Dict.remove rest key = rest := by
        apply filter_eq_self.mpr
        intro other inside
        have differs : other.1 ≠ key := fun same => fresh (List.mem_map.mpr ⟨other, inside, same⟩)
        simp [differs]
      have skipped : Dict.remove ((key, value) :: rest) key = Dict.remove rest key := by
        simp [Dict.remove]
      rw [skipped, kept]
    · have differs : entry.1 ≠ key := by
        rintro rfl
        exact fresh (List.mem_map.mpr ⟨_, inRest, rfl⟩)
      have kept : Dict.remove (entry :: rest) key = entry :: Dict.remove rest key := by
        simp [Dict.remove, differs]
      rw [kept]
      exact ((ih uniqueRest inRest).cons entry).trans (Perm.swap _ _ _)

theorem oldestIdle_none_iff (blocks : Dict Hash BlockStatus) :
    oldestIdle isProtected blocks = none ↔ idleCount isProtected blocks = 0 := by
  unfold oldestIdle idleCount
  rw [find?_eq_none, countP_eq_zero]
  rfl

theorem oldestIdle_erased {blocks : Dict Hash BlockStatus} {blockHash : Hash} {block : BlockStatus}
    (found : oldestIdle isProtected blocks = some (blockHash, block)) :
    idleCount isProtected (blocks.erase blockHash) + 1 = idleCount isProtected blocks ∧
      (blocks.erase blockHash).entries.length + 1 = blocks.entries.length := by
  have idle : isIdle isProtected (blockHash, block) = true := find?_some found
  have perm := remove_perm blocks.unique (mem_of_find?_eq_some found)
  constructor
  · unfold idleCount
    rw [perm.countP_eq, countP_cons_of_pos idle]
    rfl
  · rw [perm.length_eq]
    rfl

variable (self : ARCOffloadingManager Hash)

theorem evictOne_none_iff : evictOne isProtected self = none ↔ reachable isProtected self = 0 := by
  have neither : evictOne isProtected self = none ↔
      (⌊self.targetT1Size⌋ ≤ (self.t1.entries.length : Int) →
        oldestIdle isProtected self.t1 = none) ∧ oldestIdle isProtected self.t2 = none := by
    unfold evictOne
    by_cases sized : ⌊self.targetT1Size⌋ ≤ (self.t1.entries.length : Int)
    · cases inT1 : oldestIdle isProtected self.t1 with
      | some entry => simp [sized]
      | none => cases inT2 : oldestIdle isProtected self.t2 with
        | some entry => simp
        | none => simp
    · rw [if_neg sized]
      cases inT2 : oldestIdle isProtected self.t2 with
      | some entry => simp
      | none => simp [sized]
  rw [neither, oldestIdle_none_iff, oldestIdle_none_iff]
  unfold reachable turnsOfT1
  omega

/-- A turn takes one of the victims that can be reached, and frees its block. -/
theorem evictOne_reaches (next : ARCOffloadingManager Hash) (blockHash : Hash)
    (evicted : evictOne isProtected self = some (next, blockHash)) :
    reachable isProtected next + 1 = reachable isProtected self ∧
      next.backend.allocatedBlocksFreeList.length =
        self.backend.allocatedBlocksFreeList.length + 1 := by
  have freed (block : BlockStatus) : (self.backend.free block).allocatedBlocksFreeList.length =
      self.backend.allocatedBlocksFreeList.length + 1 := length_append
  unfold evictOne at evicted
  split at evicted
  · rename_i victim block chosen
    cases evicted
    by_cases sized : ⌊self.targetT1Size⌋ ≤ (self.t1.entries.length : Int)
    · rw [if_pos sized] at chosen
      obtain ⟨fewer, shorter⟩ := oldestIdle_erased isProtected chosen
      refine ⟨?_, freed block⟩
      simp only [reachable, turnsOfT1]
      omega
    · rw [if_neg sized] at chosen
      contradiction
  · rename_i nothing
    split at evicted
    · rename_i victim block chosen
      cases evicted
      obtain ⟨fewer, -⟩ := oldestIdle_erased isProtected chosen
      refine ⟨?_, freed block⟩
      -- T1 has no victim in this turn, and it stays as it is.
      have none : min (idleCount isProtected self.t1) (turnsOfT1 self) = 0 := by
        unfold turnsOfT1
        by_cases sized : ⌊self.targetT1Size⌋ ≤ (self.t1.entries.length : Int)
        · rw [if_pos sized, oldestIdle_none_iff] at nothing
          omega
        · omega
      simp only [reachable, turnsOfT1] at none ⊢
      omega
    · contradiction

/-! The loop. -/

theorem evictLoop_reaches (count : Nat) (self : ARCOffloadingManager Hash) :
    ((evictLoop isProtected count self).2 = none ↔ reachable isProtected self < count) ∧
      (evictLoop isProtected count self).1.backend.allocatedBlocksFreeList.length =
        self.backend.allocatedBlocksFreeList.length + min count (reachable isProtected self) ∧
      (reachable isProtected self = 0 → (evictLoop isProtected count self).1 = self) := by
  induction count generalizing self with
  | zero =>
    refine ⟨?_, by simp [evictLoop], fun _ => rfl⟩
    constructor
    · intro impossible
      contradiction
    · omega
  | succ count ih =>
    have stops := evictOne_none_iff isProtected self
    rw [evictLoop]
    cases evicted : evictOne isProtected self with
    | none =>
      have zero := stops.mp evicted
      refine ⟨?_, ?_, fun _ => rfl⟩
      · simp only [true_iff]
        omega
      · simp only
        omega
    | some outcome =>
      obtain ⟨next, blockHash⟩ := outcome
      obtain ⟨reaches, freed⟩ := evictOne_reaches isProtected self next blockHash evicted
      obtain ⟨refused, length, -⟩ := ih next
      refine ⟨?_, ?_, ?_⟩
      · rw [map_eq_none_iff, refused]
        omega
      · rw [length]
        omega
      · omega

theorem storeNew_stores (toStore toEvict : List Hash) (next : ARCOffloadingManager Hash) :
    self.storeNew toStore toEvict ≠ some (next, none) := by
  intro stored
  obtain ⟨allocated, -, outcome⟩ := map_eq_some_iff.mp stored
  cases (Prod.mk.inj outcome).2

/-- The call refuses exactly when the loop runs out of victims it can reach. -/
theorem prepareStore_refuses {next : ARCOffloadingManager Hash} {blockHashes : List Hash} :
    self.prepareStore blockHashes = some (next, none) ↔
      (reachable blockHashes self : Int) < numBlocksToEvict self blockHashes ∧
        (evictLoop blockHashes (numBlocksToEvict self blockHashes).toNat self).1 = next := by
  have count : ((blockHashes.filter fun blockHash =>
      !self.t1.contains blockHash && !self.t2.contains blockHash).length -
        self.backend.getNumFreeBlocks) = (numBlocksToEvict self blockHashes).toNat := by
    unfold numBlocksToEvict
    omega
  obtain ⟨refused, -, -⟩ := evictLoop_reaches blockHashes
    (numBlocksToEvict self blockHashes).toNat self
  unfold prepareStore
  simp only [count]
  by_cases empty : (blockHashes.filter fun blockHash =>
      !self.t1.contains blockHash && !self.t2.contains blockHash).isEmpty = true
  · rw [if_pos empty]
    have enough : numBlocksToEvict self blockHashes ≤ 0 := by
      rw [numBlocksToEvict, List.isEmpty_iff.mp empty, length_nil]
      omega
    constructor
    · intro impossible
      cases (Prod.mk.inj (some.inj impossible)).2
    · omega
  · rw [if_neg empty]
    cases loop : evictLoop blockHashes (numBlocksToEvict self blockHashes).toNat self with
    | mk evicted toEvict =>
      rw [loop] at refused
      cases toEvict with
      | none =>
        have less := refused.mp rfl
        constructor
        · intro same
          exact ⟨by omega, (Prod.mk.inj (some.inj same)).1⟩
        · rintro ⟨-, same⟩
          rw [show evicted = next from same]
      | some toEvict =>
        constructor
        · exact fun stored => absurd stored (storeNew_stores _ _ _ next)
        · rintro ⟨less, -⟩
          have impossible := refused.mpr (by omega)
          contradiction

/-- The victims that the loop reaches suffice, or it reaches none and there are too few. -/
def ReachesAll (self : ARCOffloadingManager Hash) (blockHashes : List Hash) : Prop :=
  numBlocksToEvict self blockHashes ≤ reachable blockHashes self ∨
    reachable blockHashes self = 0 ∧
      ((idleCount blockHashes self.t1 + idleCount blockHashes self.t2 : Nat) : Int) <
        numBlocksToEvict self blockHashes

instance (self : ARCOffloadingManager Hash) (blockHashes : List Hash) :
    Decidable (ReachesAll self blockHashes) := inferInstanceAs (Decidable (_ ∨ _))

theorem prepareStore_refusesCleanly (blockHashes : List Hash) :
    RefusesCleanly self blockHashes ↔ ReachesAll self blockHashes := by
  obtain ⟨-, length, same⟩ := evictLoop_reaches blockHashes
    (numBlocksToEvict self blockHashes).toNat self
  have fewer : reachable blockHashes self ≤
      idleCount blockHashes self.t1 + idleCount blockHashes self.t2 := by
    unfold reachable
    omega
  have refuses : (∃ next, self.prepareStore blockHashes = some (next, none)) ↔
      (reachable blockHashes self : Int) < numBlocksToEvict self blockHashes := by
    constructor
    · rintro ⟨next, refused⟩
      exact ((prepareStore_refuses self).mp refused).1
    · exact fun less => ⟨_, (prepareStore_refuses self).mpr ⟨less, rfl⟩⟩
  constructor
  · rintro ⟨refusesIff, unchanged⟩
    by_cases enough : numBlocksToEvict self blockHashes ≤ reachable blockHashes self
    · exact Or.inl enough
    · obtain ⟨next, refused⟩ := refuses.mpr (by omega)
      have outcome := ((prepareStore_refuses self).mp refused).2
      rw [outcome, unchanged next refused] at length
      exact Or.inr ⟨by omega, refusesIff.mp ⟨next, refused⟩⟩
  · intro condition
    unfold ReachesAll at condition
    constructor
    · rw [refuses]
      omega
    · intro next refused
      obtain ⟨less, outcome⟩ := (prepareStore_refuses self).mp refused
      rw [← outcome]
      apply same
      omega

/-- A property of every `prepare_store` of a run. -/
def EachPrepareStore (ops : OffloadingManager Hash (ARCOffloadingManager Hash))
    (property : ARCOffloadingManager Hash → List Hash → Prop) :
    Protocol Hash (ARCOffloadingManager Hash) → List (Call Hash) → Prop
  | _, [] => True
  | protocol, call :: rest =>
    (∀ blockHashes, call = .prepareStore blockHashes → property protocol.manager blockHashes) ∧
      ∀ next ∈ protocol.call ops call, EachPrepareStore ops property next rest

theorem EachPrepareStore.congr (ops : OffloadingManager Hash (ARCOffloadingManager Hash))
    (property other : ARCOffloadingManager Hash → List Hash → Prop)
    (same : ∀ self blockHashes, property self blockHashes ↔ other self blockHashes)
    (protocol : Protocol Hash (ARCOffloadingManager Hash)) (calls : List (Call Hash)) :
    EachPrepareStore ops property protocol calls ↔ EachPrepareStore ops other protocol calls := by
  induction calls generalizing protocol with
  | nil => exact Iff.rfl
  | cons call rest ih =>
    unfold EachPrepareStore
    simp only [same, ih]

/-- Whatever the state and the hashes, the call refuses cleanly when it reaches what it needs; and a
run refuses cleanly throughout when each of its calls does. -/
theorem arcRun_refusesCleanly_iff :
    (∀ (self : ARCOffloadingManager Hash) blockHashes,
      RefusesCleanly self blockHashes ↔ ReachesAll self blockHashes) ∧
    ∀ (round : ℚ → ℚ) (numBlocks : Nat) (enableEvents : Bool) (calls : List (Call Hash)),
      EachPrepareStore (arcOps round) RefusesCleanly
          (.init (ARCOffloadingManager.init numBlocks enableEvents)) calls ↔
        EachPrepareStore (arcOps round) ReachesAll
          (.init (ARCOffloadingManager.init numBlocks enableEvents)) calls := by
  constructor
  · exact prepareStore_refusesCleanly
  · intro round numBlocks enableEvents calls
    exact EachPrepareStore.congr _ _ _ prepareStore_refusesCleanly _ calls

/-- One of two blocks is being read: room for two more is not there. -/
def pinnedRun : List (Call Nat) :=
  [.prepareStore [1, 2], .completeStore [1, 2] true, .prepareLoad [1]]

/-- T1 holds the idle block 3, but its target is 2; the one block of T2 is being read. -/
def targetRun : List (Call Nat) :=
  [.prepareStore [1, 2], .completeStore [1, 2] true, .prepareStore [3], .completeStore [3] true,
    .touch [1], .touch [1], .touch [2], .prepareLoad [2]]

/-- After the first run a refused call has evicted 2; after the second one it refuses although 3
can be evicted. -/
theorem arcRuns_not_refusedCleanly :
    (∃ final, AllowedRun (arcOps id) (.init (ARCOffloadingManager.init 2 true)) pinnedRun ∧
      Protocol.run (arcOps id) (.init (ARCOffloadingManager.init 2 true)) pinnedRun = some final ∧
      ¬ RefusesCleanly final.manager [3, 4]) ∧
    ∃ final, AllowedRun (arcOps id) (.init (ARCOffloadingManager.init 2 true)) targetRun ∧
      Protocol.run (arcOps id) (.init (ARCOffloadingManager.init 2 true)) targetRun = some final ∧
      ¬ RefusesCleanly final.manager [4] := by
  constructor
  · refine ⟨(Protocol.run (arcOps id) (.init (ARCOffloadingManager.init 2 true)) pinnedRun).get
      (by decide +kernel), by decide +kernel, (some_get _).symm, ?_⟩
    rw [prepareStore_refusesCleanly]
    decide +kernel
  · refine ⟨(Protocol.run (arcOps id) (.init (ARCOffloadingManager.init 2 true)) targetRun).get
      (by decide +kernel), by decide +kernel, (some_get _).symm, ?_⟩
    rw [prepareStore_refusesCleanly]
    decide +kernel

end VllmDcu.Offloading

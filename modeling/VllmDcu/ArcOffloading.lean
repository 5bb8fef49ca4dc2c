import VllmDcu.OffloadRuns

/-! The ARC manager simulates the plain store too, and its four lists stay apart. -/
namespace VllmDcu.Offloading
open ARCOffloadingManager List Function Dict
variable {Hash : Type} [DecidableEq Hash]

def arcOps (round : ℚ → ℚ) : OffloadingManager Hash (ARCOffloadingManager Hash) where
  entries self := self.t1.entries ++ self.t2.entries
  backend := ARCOffloadingManager.backend
  lookup := ARCOffloadingManager.lookup
  touch := ARCOffloadingManager.touch round
  prepareLoad := ARCOffloadingManager.prepareLoad
  completeLoad := ARCOffloadingManager.completeLoad
  prepareStore := ARCOffloadingManager.prepareStore
  completeStore := ARCOffloadingManager.completeStore

def arcView (self : ARCOffloadingManager Hash) : Store Hash :=
  ⟨fun blockHash => (self.t1.get? blockHash).or (self.t2.get? blockHash), self.backend⟩

/-- No hash is in two of the four lists, and the target size of T1 is in its bounds. -/
structure ArcValid (numBlocks : Nat) (manager : ARCOffloadingManager Hash) : Prop where
  t1t2 : ∀ blockHash ∈ manager.t1.keys, blockHash ∉ manager.t2.keys
  t1b1 : ∀ blockHash ∈ manager.t1.keys, blockHash ∉ manager.b1.keys
  t1b2 : ∀ blockHash ∈ manager.t1.keys, blockHash ∉ manager.b2.keys
  t2b1 : ∀ blockHash ∈ manager.t2.keys, blockHash ∉ manager.b1.keys
  t2b2 : ∀ blockHash ∈ manager.t2.keys, blockHash ∉ manager.b2.keys
  b1b2 : ∀ blockHash ∈ manager.b1.keys, blockHash ∉ manager.b2.keys
  nonneg : 0 ≤ manager.targetT1Size
  bounded : manager.targetT1Size ≤ numBlocks
  capacity : manager.cacheCapacity = numBlocks

variable {Value : Type}

@[simp] theorem mem_keys_moveToEnd (d : Dict Hash Value) (key other : Hash) :
    other ∈ (d.moveToEnd key).keys ↔ other ∈ d.keys := by
  simp only [mem_keys_iff, get?_moveToEnd]

omit [DecidableEq Hash] in
theorem dropOldest_keys (count : Nat) (d : Dict Hash Value) (key : Hash)
    (member : key ∈ (d.dropOldest count).keys) : key ∈ d.keys :=
  ((drop_sublist count d.entries).map Prod.fst).mem member

theorem contains_iff (d : Dict Hash Value) (key : Hash) : d.contains key = true ↔ key ∈ d.keys := by
  rw [Dict.contains, Option.isSome_iff_exists, mem_keys_iff]

theorem mem_of_get? {d : Dict Hash Value} {key : Hash} {value : Value}
    (found : d.get? key = some value) : key ∈ d.keys := (mem_keys_iff d key).mpr ⟨value, found⟩

theorem get?_absent {d : Dict Hash Value} {key : Hash} (absent : key ∉ d.keys) :
    d.get? key = none := by
  cases found : d.get? key with
  | none => rfl
  | some value => exact absurd (mem_of_get? found) absent

section Moves
variable {numBlocks : Nat} {self : ARCOffloadingManager Hash}

omit [DecidableEq Hash] in
/-- Lists with fewer hashes stay apart. -/
theorem ArcValid.fewer (valid : ArcValid numBlocks self) (next : ARCOffloadingManager Hash)
    (t1 : ∀ blockHash ∈ next.t1.keys, blockHash ∈ self.t1.keys)
    (t2 : ∀ blockHash ∈ next.t2.keys, blockHash ∈ self.t2.keys)
    (b1 : ∀ blockHash ∈ next.b1.keys, blockHash ∈ self.b1.keys)
    (b2 : ∀ blockHash ∈ next.b2.keys, blockHash ∈ self.b2.keys)
    (target : next.targetT1Size = self.targetT1Size)
    (capacity : next.cacheCapacity = self.cacheCapacity) : ArcValid numBlocks next where
  t1t2 other member inT2 := valid.t1t2 other (t1 other member) (t2 other inT2)
  t1b1 other member inB1 := valid.t1b1 other (t1 other member) (b1 other inB1)
  t1b2 other member inB2 := valid.t1b2 other (t1 other member) (b2 other inB2)
  t2b1 other member inB1 := valid.t2b1 other (t2 other member) (b1 other inB1)
  t2b2 other member inB2 := valid.t2b2 other (t2 other member) (b2 other inB2)
  b1b2 other member inB2 := valid.b1b2 other (b1 other member) (b2 other inB2)
  nonneg := target ▸ valid.nonneg
  bounded := target ▸ valid.bounded
  capacity := capacity.trans valid.capacity

theorem arc_put (valid : ArcValid numBlocks self) {blockHash : Hash} (old block : BlockStatus)
    (found : access.get self blockHash = some old) :
    ArcValid numBlocks (access.put self blockHash block) ∧
      arcView (access.put self blockHash block) = (arcView self).put blockHash block := by
  simp only [access, Option.or_eq_some_iff] at found
  by_cases recent : self.t1.contains blockHash = true
  · have inT1 := (contains_iff _ _).mp recent
    simp only [access, recent, ↓reduceIte]
    constructor
    · refine valid.fewer _ ?_ (fun _ => id) (fun _ => id) (fun _ => id) rfl rfl
      intro other member
      rcases (mem_keys_set _ _ _ _).mp member with rfl | member
      · exact inT1
      · exact member
    · simp only [arcView, Store.put]
      congr 1
      funext other
      rw [get?_set, update_apply]
      split <;> rfl
  · have notT1 := get?_absent fun member => recent ((contains_iff _ _).mpr member)
    have inT2 : blockHash ∈ self.t2.keys := by
      rcases found with inT1 | ⟨-, inT2⟩
      · rw [notT1] at inT1
        cases inT1
      · exact mem_of_get? inT2
    simp only [access, recent, Bool.false_eq_true, ↓reduceIte]
    constructor
    · refine valid.fewer _ (fun _ => id) ?_ (fun _ => id) (fun _ => id) rfl rfl
      intro other member
      rcases (mem_keys_set _ _ _ _).mp member with rfl | member
      · exact inT2
      · exact member
    · simp only [arcView, Store.put]
      congr 1
      funext other
      rw [get?_set, update_apply]
      by_cases same : other = blockHash
      · rw [if_pos same, if_pos same, same, notT1]
        rfl
      · rw [if_neg same, if_neg same]

theorem arc_reads (numBlocks : Nat) :
    Reads (access : Access Hash _) arcView (ArcValid numBlocks) where
  get _ _ := rfl
  put _ _ old block valid found := arc_put valid old block found

/-- The bounds of the adapted target, for a rounding that keeps 0 and the capacity. -/
structure Rounds (round : ℚ → ℚ) (numBlocks : Nat) : Prop where
  mono : Monotone round
  zero : round 0 = 0
  capacity : round numBlocks = numBlocks

theorem arc_touchOne {round : ℚ → ℚ} (rounds : Rounds round numBlocks)
    (valid : ArcValid numBlocks self) (blockHash : Hash) :
    ArcValid numBlocks (touchOne round self blockHash) ∧
      arcView (touchOne round self blockHash) = arcView self := by
  have positive (own other : Dict Hash Unit) : 0 ≤ delta round own other :=
    le_trans zero_le_one (le_max_left _ _)
  rw [touchOne]
  cases found : self.t1.get? blockHash with
  | some block =>
    have inT1 := mem_of_get? found
    simp only
    split
    · -- a second touch of a stored block: from T1 to T2
      constructor
      · constructor
        · intro other member inT2
          rw [mem_keys_erase] at member
          rcases (mem_keys_set _ _ _ _).mp inT2 with same | inT2
          · exact member.1 same
          · exact valid.t1t2 other member.2 inT2
        · exact fun other member => valid.t1b1 other ((mem_keys_erase _ _ _).mp member).2
        · exact fun other member => valid.t1b2 other ((mem_keys_erase _ _ _).mp member).2
        · intro other member
          rcases (mem_keys_set _ _ _ _).mp member with rfl | member
          · exact valid.t1b1 _ inT1
          · exact valid.t2b1 other member
        · intro other member
          rcases (mem_keys_set _ _ _ _).mp member with rfl | member
          · exact valid.t1b2 _ inT1
          · exact valid.t2b2 other member
        · exact valid.b1b2
        · exact valid.nonneg
        · exact valid.bounded
        · exact valid.capacity
      · simp only [arcView]
        congr 1
        funext other
        rw [get?_erase, get?_set]
        by_cases same : other = blockHash
        · rw [if_pos same, if_pos same, same, found]
          rfl
        · rw [if_neg same, if_neg same]
    · -- not stored yet: it stays in T1, as the most recent one
      constructor
      · refine valid.fewer _ ?_ (fun _ => id) (fun _ => id) (fun _ => id) rfl rfl
        intro other member
        rcases (mem_keys_set _ _ _ _).mp member with rfl | member
        · exact inT1
        · exact ((mem_keys_erase _ _ _).mp member).2
      · simp only [arcView]
        congr 1
        funext other
        rw [get?_set, get?_erase]
        by_cases equal : other = blockHash
        · rw [if_pos equal, equal, found]
        · rw [if_neg equal, if_neg equal]
  | none =>
    simp only
    split
    · constructor
      · exact valid.fewer _ (fun _ => id) (fun _ => (mem_keys_moveToEnd _ _ _).mp) (fun _ => id)
          (fun _ => id) rfl rfl
      · simp only [arcView, get?_moveToEnd]
    · split
      · constructor
        · constructor
          · exact valid.t1t2
          · simpa using valid.t1b1
          · exact valid.t1b2
          · simpa using valid.t2b1
          · exact valid.t2b2
          · simpa using valid.b1b2
          · apply le_min
            · rw [← rounds.zero]
              exact rounds.mono (add_nonneg valid.nonneg (positive _ _))
            · exact Nat.cast_nonneg _
          · rw [← valid.capacity]
            exact min_le_right _ _
          · exact valid.capacity
        · rfl
      · split
        · constructor
          · constructor
            · exact valid.t1t2
            · exact valid.t1b1
            · simpa using valid.t1b2
            · exact valid.t2b1
            · simpa using valid.t2b2
            · simpa using valid.b1b2
            · exact le_max_right _ _
            · apply max_le
              · rw [← rounds.capacity]
                exact rounds.mono ((sub_le_self _ (positive _ _)).trans valid.bounded)
              · exact Nat.cast_nonneg _
            · exact valid.capacity
          · rfl
        · exact ⟨valid, rfl⟩

theorem arc_touch {round : ℚ → ℚ} (rounds : Rounds round numBlocks) (valid : ArcValid numBlocks self)
    (blockHashes : List Hash) :
    ArcValid numBlocks (touch round self blockHashes) ∧
      arcView (touch round self blockHashes) = arcView self := by
  rw [touch]
  generalize blockHashes.reverse = order
  induction order generalizing self with
  | nil => exact ⟨valid, rfl⟩
  | cons blockHash rest ih =>
    obtain ⟨valid', same⟩ := arc_touchOne rounds valid blockHash
    obtain ⟨valid'', same'⟩ := ih valid'
    exact ⟨valid'', same'.trans same⟩

/-- A block that leaves T1 or T2 leaves the cache. -/
theorem arc_erased (valid : ArcValid numBlocks self) {blockHash : Hash} {block : BlockStatus}
    (backend : CPUBackend) :
    (self.t1.get? blockHash = some block →
      (⟨fun other => ((self.t1.erase blockHash).get? other).or (self.t2.get? other), backend⟩ :
        Store Hash) = ⟨Function.update (arcView self).blocks blockHash none, backend⟩) ∧
    (self.t2.get? blockHash = some block →
      (⟨fun other => (self.t1.get? other).or ((self.t2.erase blockHash).get? other), backend⟩ :
        Store Hash) = ⟨Function.update (arcView self).blocks blockHash none, backend⟩) := by
  constructor
  · intro found
    have notT2 := get?_absent (valid.t1t2 blockHash (mem_of_get? found))
    congr 1
    funext other
    rw [get?_erase, update_apply]
    by_cases same : other = blockHash
    · rw [if_pos same, if_pos same, same, notT2]
      rfl
    · rw [if_neg same, if_neg same]
      rfl
  · intro found
    have notT1 := get?_absent fun inT1 => valid.t1t2 blockHash inT1 (mem_of_get? found)
    congr 1
    funext other
    rw [get?_erase, update_apply]
    by_cases same : other = blockHash
    · rw [if_pos same, if_pos same, same, notT1]
      rfl
    · rw [if_neg same, if_neg same]
      rfl

theorem arc_completeOne {success : Bool} (valid : ArcValid numBlocks self) {blockHash : Hash}
    {next : Store Hash} (completed : (arcView self).complete success blockHash = some next) :
    ∃ after stored, completeOne success self blockHash = some (after, stored) ∧
      ArcValid numBlocks after ∧ arcView after = next := by
  rw [Store.complete] at completed
  cases found : (arcView self).blocks blockHash with
  | none => simp [found] at completed
  | some block =>
    have held : access.get self blockHash = some block := found
    simp only [found] at completed
    split at completed
    · cases completed
    · rename_i notReady
      rw [completeOne]
      split at completed
      · rename_i succeeded
        cases completed
        obtain ⟨valid', same⟩ := arc_put valid block { block with refCnt := 0 } held
        refine ⟨access.put self blockHash { block with refCnt := 0 }, true, ?_, valid', same⟩
        rw [if_pos succeeded, held]
        simp only [notReady, Bool.false_eq_true, ↓reduceIte]
      · rename_i failed
        cases completed
        rw [if_neg failed]
        cases inT1 : self.t1.get? blockHash with
        | some recent =>
          have same : recent = block := by
            simp only [arcView, inT1, Option.some_or, Option.some.injEq] at found
            exact found
          subst same
          refine ⟨{ self with
            t1 := self.t1.erase blockHash
            backend := self.backend.free recent }, false, by simp only [notReady]; rfl, ?_,
            (arc_erased valid _).1 inT1⟩
          exact valid.fewer _ (fun _ member => ((mem_keys_erase _ _ _).mp member).2)
            (fun _ => id) (fun _ => id) (fun _ => id) rfl rfl
        | none =>
          have inT2 : self.t2.get? blockHash = some block := by
            simpa only [arcView, inT1, Option.none_or] using found
          refine ⟨{ self with
            t2 := self.t2.erase blockHash
            backend := self.backend.free block }, false, by simp only [inT2, notReady]; rfl, ?_,
            (arc_erased valid _).2 inT2⟩
          exact valid.fewer _ (fun _ => id)
            (fun _ member => ((mem_keys_erase _ _ _).mp member).2) (fun _ => id) (fun _ => id)
            rfl rfl

theorem oldestIdle_some {isProtected : List Hash} {blocks : Dict Hash BlockStatus}
    {blockHash : Hash} {block : BlockStatus}
    (found : oldestIdle isProtected blocks = some (blockHash, block)) :
    blocks.get? blockHash = some block ∧ block.refCnt = 0 ∧ blockHash ∉ isProtected := by
  have idle := find?_some found
  rw [decide_eq_true_eq] at idle
  exact ⟨(get?_eq_some_iff _).mpr (mem_of_find?_eq_some found), idle⟩

theorem arc_evictOne {isProtected : List Hash} (valid : ArcValid numBlocks self)
    {next : ARCOffloadingManager Hash} {blockHash : Hash}
    (evicted : evictOne isProtected self = some (next, blockHash)) :
    ArcValid numBlocks next ∧ blockHash ∉ isProtected ∧
      (arcView self).evict blockHash = some (arcView next) := by
  rw [evictOne] at evicted
  split at evicted
  · rename_i victim block chosen
    cases evicted
    have fromT1 : oldestIdle isProtected self.t1 = some (blockHash, block) := by
      split at chosen
      · exact chosen
      · cases chosen
    obtain ⟨inT1, idle, free⟩ := oldestIdle_some fromT1
    have member := mem_of_get? inT1
    refine ⟨?_, free, ?_⟩
    · constructor
      · exact fun other inside => valid.t1t2 other ((mem_keys_erase _ _ _).mp inside).2
      · intro other inside inB1
        rw [mem_keys_erase] at inside
        rcases (mem_keys_set _ _ _ _).mp inB1 with same | inB1
        · exact inside.1 same
        · exact valid.t1b1 other inside.2 inB1
      · exact fun other inside => valid.t1b2 other ((mem_keys_erase _ _ _).mp inside).2
      · intro other inside inB1
        rcases (mem_keys_set _ _ _ _).mp inB1 with rfl | inB1
        · exact valid.t1t2 _ member inside
        · exact valid.t2b1 other inside inB1
      · exact valid.t2b2
      · intro other inside
        rcases (mem_keys_set _ _ _ _).mp inside with rfl | inside
        · exact valid.t1b2 _ member
        · exact valid.b1b2 other inside
      · exact valid.nonneg
      · exact valid.bounded
      · exact valid.capacity
    · have held : (arcView self).blocks blockHash = some block := by
        simp only [arcView, inT1, Option.some_or]
      simp only [Store.evict, held, idle, ↓reduceIte]
      exact congrArg _ ((arc_erased valid _).1 inT1).symm
  · split at evicted
    · rename_i victim block chosen
      cases evicted
      obtain ⟨inT2, idle, free⟩ := oldestIdle_some chosen
      have member := mem_of_get? inT2
      have notT1 : blockHash ∉ self.t1.keys := fun inT1 => valid.t1t2 blockHash inT1 member
      refine ⟨?_, free, ?_⟩
      · constructor
        · exact fun other inside inT2 =>
            valid.t1t2 other inside ((mem_keys_erase _ _ _).mp inT2).2
        · exact valid.t1b1
        · intro other inside inB2
          rcases (mem_keys_set _ _ _ _).mp inB2 with rfl | inB2
          · exact notT1 inside
          · exact valid.t1b2 other inside inB2
        · exact fun other inside => valid.t2b1 other ((mem_keys_erase _ _ _).mp inside).2
        · intro other inside inB2
          rw [mem_keys_erase] at inside
          rcases (mem_keys_set _ _ _ _).mp inB2 with same | inB2
          · exact inside.1 same
          · exact valid.t2b2 other inside.2 inB2
        · intro other inside inB2
          rcases (mem_keys_set _ _ _ _).mp inB2 with rfl | inB2
          · exact valid.t2b1 _ member inside
          · exact valid.b1b2 other inside inB2
        · exact valid.nonneg
        · exact valid.bounded
        · exact valid.capacity
      · have held : (arcView self).blocks blockHash = some block := by
          simp only [arcView, get?_absent notT1, Option.none_or, inT2]
        simp only [Store.evict, held, idle, ↓reduceIte]
        exact congrArg _ ((arc_erased valid _).2 inT2).symm
    · cases evicted

/-- The eviction loop, also when it gives up. -/
theorem arc_evictLoop {isProtected : List Hash} {count : Nat} (valid : ArcValid numBlocks self) :
    ∃ toEvict, (∀ blockHash ∈ toEvict, blockHash ∉ isProtected) ∧
      Store.evictAll toEvict (arcView self) = some (arcView (evictLoop isProtected count self).1) ∧
      ArcValid numBlocks (evictLoop isProtected count self).1 ∧
      ((evictLoop isProtected count self).2 = none ∨
        (evictLoop isProtected count self).2 = some toEvict ∧ toEvict.length = count) := by
  induction count generalizing self with
  | zero => exact ⟨[], by rintro _ ⟨⟩, rfl, valid, .inr ⟨rfl, rfl⟩⟩
  | succ count ih =>
    rw [evictLoop]
    cases evicted : evictOne isProtected self with
    | none => exact ⟨[], by rintro _ ⟨⟩, rfl, valid, .inl rfl⟩
    | some result =>
      obtain ⟨next, blockHash⟩ := result
      obtain ⟨valid', free, evicts⟩ := arc_evictOne valid evicted
      obtain ⟨toEvict, apart, all, valid'', outcome⟩ := ih valid'
      refine ⟨blockHash :: toEvict, ?_, ?_, valid'', ?_⟩
      · intro other member
        rcases mem_cons.mp member with rfl | later
        · exact free
        · exact apart other later
      · rw [Store.evictAll, evicts]
        exact all
      · rcases outcome with gaveUp | ⟨done, length⟩
        · exact .inl (by simp only [gaveUp, Option.map_none])
        · exact .inr ⟨by simp only [done, Option.map_some], by rw [length_cons, length]⟩

theorem arc_insertAll {stored : List (Hash × BlockStatus)} (valid : ArcValid numBlocks self)
    (new : ∀ entry ∈ stored, entry.1 ∉ self.t2.keys) :
    ArcValid numBlocks (self.insertAll stored) ∧
      arcView (self.insertAll stored) = (arcView self).putAll stored := by
  induction stored generalizing self with
  | nil => exact ⟨valid, rfl⟩
  | cons entry rest ih =>
    have notT2 := new entry mem_cons_self
    have valid' : ArcValid numBlocks { self with
        t1 := self.t1.set entry.1 entry.2
        b1 := self.b1.erase entry.1
        b2 := self.b2.erase entry.1 } := by
      constructor
      · intro other inside
        rcases (mem_keys_set _ _ _ _).mp inside with rfl | inside
        · exact notT2
        · exact valid.t1t2 other inside
      · intro other inside inB1
        rw [mem_keys_erase] at inB1
        rcases (mem_keys_set _ _ _ _).mp inside with same | inside
        · exact inB1.1 same
        · exact valid.t1b1 other inside inB1.2
      · intro other inside inB2
        rw [mem_keys_erase] at inB2
        rcases (mem_keys_set _ _ _ _).mp inside with same | inside
        · exact inB2.1 same
        · exact valid.t1b2 other inside inB2.2
      · exact fun other inside inB1 => valid.t2b1 other inside ((mem_keys_erase _ _ _).mp inB1).2
      · exact fun other inside inB2 => valid.t2b2 other inside ((mem_keys_erase _ _ _).mp inB2).2
      · exact fun other inB1 inB2 => valid.b1b2 other ((mem_keys_erase _ _ _).mp inB1).2
          ((mem_keys_erase _ _ _).mp inB2).2
      · exact valid.nonneg
      · exact valid.bounded
      · exact valid.capacity
    obtain ⟨valid'', same⟩ := ih valid' fun other member => new other (mem_cons_of_mem _ member)
    refine ⟨valid'', same.trans ?_⟩
    have put : arcView { self with
        t1 := self.t1.set entry.1 entry.2
        b1 := self.b1.erase entry.1
        b2 := self.b2.erase entry.1 } = (arcView self).put entry.1 entry.2 := by
      simp only [arcView, Store.put]
      congr 1
      funext other
      rw [get?_set, update_apply]
      split <;> rfl
    rw [put]
    rfl

theorem arc_storeNew (valid : ArcValid numBlocks self) {toStore toEvict : List Hash}
    (new : ∀ blockHash ∈ toStore, blockHash ∉ self.t2.keys) {next : Store Hash} {blockIds : List Nat}
    (stored : Store.storeAll toStore (arcView self) = some (next, blockIds)) :
    ∃ after, self.storeNew toStore toEvict = some (after, some ⟨toStore, blockIds, toEvict⟩) ∧
      ArcValid numBlocks after ∧ arcView after = next := by
  rw [Store.storeAll, Option.map_eq_some_iff] at stored
  obtain ⟨⟨backend, blocks⟩, allocated, equal⟩ := stored
  cases equal
  have valid' : ArcValid numBlocks { self with backend := backend } :=
    valid.fewer _ (fun _ => id) (fun _ => id) (fun _ => id) (fun _ => id) rfl rfl
  obtain ⟨valid'', same⟩ := arc_insertAll valid' fun entry member =>
    new entry.1 (of_mem_zip member).1
  refine ⟨_, ?_, valid'', same⟩
  change self.backend.allocateBlocks toStore.length = _ at allocated
  rw [storeNew, allocated]
  rfl

theorem arc_prepareStore (valid : ArcValid numBlocks self) (blockHashes : List Hash) :
    ∃ toEvict middle, (∀ blockHash ∈ toEvict, blockHash ∉ blockHashes) ∧
      Store.evictAll toEvict (arcView self) = some middle ∧
      ((∃ after, self.prepareStore blockHashes = some (after, none) ∧ ArcValid numBlocks after ∧
          arcView after = middle) ∨
        (blockHashes.filter fun blockHash => ((arcView self).blocks blockHash).isNone).length ≤
            (arcView self).backend.getNumFreeBlocks + toEvict.length ∧
          ∀ next blockIds, Store.storeAll
              (blockHashes.filter fun blockHash => ((arcView self).blocks blockHash).isNone) middle =
                some (next, blockIds) →
            ∃ after, self.prepareStore blockHashes = some (after, some
                ⟨blockHashes.filter fun blockHash => ((arcView self).blocks blockHash).isNone,
                  blockIds, toEvict⟩) ∧ ArcValid numBlocks after ∧ arcView after = next) := by
  have toStoreIs : (blockHashes.filter fun blockHash =>
        !self.t1.contains blockHash && !self.t2.contains blockHash) =
      blockHashes.filter fun blockHash => ((arcView self).blocks blockHash).isNone := by
    apply filter_congr
    intro blockHash _
    simp only [Dict.contains, Option.not_isSome, arcView]
    cases self.t1.get? blockHash <;> rfl
  have isNew (blockHash : Hash) (member : blockHash ∈ blockHashes.filter fun blockHash =>
      ((arcView self).blocks blockHash).isNone) : (arcView self).blocks blockHash = none :=
    Option.isNone_iff_eq_none.mp (mem_filter.mp member).2
  simp only [ARCOffloadingManager.prepareStore, toStoreIs]
  generalize (blockHashes.filter fun blockHash => ((arcView self).blocks blockHash).isNone) = toStore
    at isNew
  by_cases nothing : toStore.isEmpty = true
  · rw [List.isEmpty_iff] at nothing
    subst nothing
    refine ⟨[], arcView self, by rintro _ ⟨⟩, rfl, .inr ⟨Nat.zero_le _, ?_⟩⟩
    intro next blockIds stored
    obtain ⟨rfl, rfl⟩ := stored
    exact ⟨self, rfl, valid, rfl⟩
  · obtain ⟨toEvict, apart, evicts, valid', outcome⟩ := arc_evictLoop valid
    refine ⟨toEvict, _, apart, evicts, ?_⟩
    generalize evictLoop blockHashes (toStore.length - self.backend.getNumFreeBlocks) self =
      result at evicts valid' outcome
    obtain ⟨evicted, selected⟩ := result
    rcases outcome with gaveUp | ⟨done, length⟩
    · cases gaveUp
      exact .inl ⟨evicted, by rw [if_neg nothing], valid', rfl⟩
    · cases done
      right
      constructor
      · change toStore.length ≤ self.backend.getNumFreeBlocks + toEvict.length
        omega
      · intro next blockIds stored
        have trimmed : ArcValid numBlocks
            { evicted.trimGhosts with events := pushEvent evicted.trimGhosts.events toEvict true } :=
          valid'.fewer _ (fun _ => id) (fun _ => id) (fun _ => dropOldest_keys _ _ _)
            (fun _ => dropOldest_keys _ _ _) rfl rfl
        obtain ⟨after, storesNew, valid'', same⟩ := arc_storeNew trimmed
          (fun blockHash member inT2 => by
            have cached : ((arcView evicted).blocks blockHash).isSome = true := by
              obtain ⟨block, found⟩ := (mem_keys_iff evicted.t2 blockHash).mp inT2
              change (((evicted.t1.get? blockHash).or (evicted.t2.get? blockHash))).isSome = true
              rw [found]
              cases evicted.t1.get? blockHash <;> rfl
            have before := Store.evictAll_cached toEvict _ _ evicts blockHash cached
            rw [isNew blockHash member] at before
            cases before) stored
        exact ⟨after, by rw [if_neg nothing]; exact storesNew, valid'', same⟩

end Moves

theorem arc_simulates {round : ℚ → ℚ} {numBlocks : Nat} (rounds : Rounds round numBlocks) :
    Simulates (arcOps round : OffloadingManager Hash _) arcView (ArcValid numBlocks) where
  backend _ := rfl
  entries self valid := by
    constructor
    · change ((self.t1.entries ++ self.t2.entries).map Prod.fst).Nodup
      rw [map_append, nodup_append]
      refine ⟨self.t1.unique, self.t2.unique, ?_⟩
      rintro blockHash inT1 _ inT2 rfl
      exact valid.t1t2 blockHash inT1 inT2
    · intro entry
      change entry ∈ self.t1.entries ++ self.t2.entries ↔
        (self.t1.get? entry.1).or (self.t2.get? entry.1) = some entry.2
      rw [mem_append, Option.or_eq_some_iff, get?_eq_some_iff, get?_eq_some_iff]
      refine or_congr_right ⟨fun inT2 => ⟨?_, inT2⟩, And.right⟩
      exact get?_absent fun inT1 => valid.t1t2 entry.1 inT1
        (mem_of_get? ((get?_eq_some_iff self.t2).mpr inT2))
  lookup self blockHashes _ := hitCount_view (arc_reads numBlocks)
  touch self blockHashes valid := arc_touch rounds valid blockHashes
  prepareLoad self blockHashes next blockIds valid loaded :=
    loadAll_view (arc_reads numBlocks) blockHashes self next blockIds valid loaded
  completeLoad self blockHashes next valid unloaded :=
    unloadAll_view (arc_reads numBlocks) blockHashes self next valid unloaded
  completeStore self blockHashes success next valid completed := by
    obtain ⟨after, stored, done, valid', same⟩ := completeEach_view
      (fun self blockHash next valid => arc_completeOne valid)
      blockHashes self next valid completed
    refine ⟨{ after with events := pushEvent after.events stored false }, ?_,
      valid'.fewer _ (fun _ => id) (fun _ => id) (fun _ => id) (fun _ => id) rfl rfl, same⟩
    change ARCOffloadingManager.completeStore self blockHashes success = _
    rw [ARCOffloadingManager.completeStore, done]
    rfl
  prepareStore self blockHashes valid _ := arc_prepareStore valid blockHashes

omit [DecidableEq Hash] in
theorem arc_init (numBlocks : Nat) (enableEvents : Bool) :
    ArcValid numBlocks (init numBlocks enableEvents : ARCOffloadingManager Hash) := by
  constructor
  · rintro _ ⟨⟩
  · rintro _ ⟨⟩
  · rintro _ ⟨⟩
  · rintro _ ⟨⟩
  · rintro _ ⟨⟩
  · rintro _ ⟨⟩
  · exact le_refl _
  · exact Nat.cast_nonneg _
  · simp [init, CPUBackend.init, CPUBackend.getNumFreeBlocks]

/-- In every run of the protocol neither manager fails, both conserve the blocks, and
the ARC manager's lists stay apart with its target in bounds. -/
theorem offloading_conserves (round : ℚ → ℚ) (numBlocks : Nat) (rounds : Rounds round numBlocks)
    (enableEvents : Bool) (calls : List (Call Hash)) :
    (AllowedRun (arcOps round) (.init (ARCOffloadingManager.init numBlocks enableEvents)) calls →
      ∃ final, Protocol.run (arcOps round) (.init (ARCOffloadingManager.init numBlocks enableEvents))
          calls = some final ∧
        Conserved (arcOps round) numBlocks final ∧ ArcValid numBlocks final.manager) ∧
    (AllowedRun lruOps (.init (LRUOffloadingManager.init numBlocks enableEvents)) calls →
      ∃ final, Protocol.run lruOps (.init (LRUOffloadingManager.init numBlocks enableEvents))
          calls = some final ∧
        Conserved lruOps numBlocks final) := by
  constructor
  · intro allowed
    obtain ⟨final, reached, kept⟩ := run_kept (arc_simulates rounds) numBlocks calls _
      ⟨arc_init numBlocks enableEvents, init_sound numBlocks⟩ allowed
    exact ⟨final, reached, kept_conserved (arc_simulates rounds) numBlocks final kept, kept.valid⟩
  · intro allowed
    obtain ⟨final, reached, kept⟩ := run_kept lru_simulates numBlocks calls _
      ⟨trivial, init_sound numBlocks⟩ allowed
    exact ⟨final, reached, kept_conserved lru_simulates numBlocks final kept⟩

/-- Two blocks: a load is pending while others are stored, a store fails, and evicted
hashes are touched and stored again. -/
def busyRun : List (Call Nat) :=
  [.prepareStore [1, 2], .lookup [1], .completeStore [1, 2] true, .lookup [1, 2, 3], .touch [1, 2],
    .prepareLoad [1], .prepareStore [3], .completeStore [3] false, .touch [2, 3],
    .prepareStore [3, 2], .prepareStore [2], .completeLoad [1], .completeStore [2] true,
    .prepareStore [4], .touch [1, 2], .completeStore [4] true]

theorem busyRun_conserves :
    (∃ final, Protocol.run (arcOps id) (.init (ARCOffloadingManager.init 2 true)) busyRun =
        some final ∧ Conserved (arcOps id) 2 final ∧ ArcValid 2 final.manager) ∧
    ∃ final, Protocol.run lruOps (.init (LRUOffloadingManager.init 2 true)) busyRun = some final ∧
      Conserved lruOps 2 final :=
  ⟨(offloading_conserves id 2 ⟨monotone_id, rfl, rfl⟩ true busyRun).1 (by decide +kernel),
    (offloading_conserves id 2 ⟨monotone_id, rfl, rfl⟩ true busyRun).2 (by decide +kernel)⟩

end VllmDcu.Offloading

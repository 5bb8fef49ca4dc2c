import VllmDcu.OffloadProtocol

/-! Both offloading managers simulate the plain store, so they conserve blocks in
every run of the protocol. -/
namespace VllmDcu.Offloading
open List Option Function Dict

variable {Hash State : Type} [DecidableEq Hash]

theorem hitCount_completed {numBlocks : Nat} {loads stores : List (Hash × Nat)} {completed : List Hash}
    {store : Store Hash} (sound : Store.Sound numBlocks loads stores completed store)
    (blockHashes : List Hash) :
    Store.access.hitCount store blockHashes =
      (blockHashes.takeWhile fun blockHash => decide (blockHash ∈ completed)).length := by
  induction blockHashes with
  | nil => rfl
  | cons blockHash rest ih =>
    rw [Access.hitCount]
    by_cases done : blockHash ∈ completed
    · obtain ⟨block, found, ready, -⟩ := sound.ready blockHash done
      simp only [Store.access, found, ready, ↓reduceIte, takeWhile_cons, done, decide_true,
        length_cons]
      exact congrArg _ ih
    · rw [takeWhile_cons, decide_eq_false done]
      cases found : store.blocks blockHash with
      | none => simp [Store.access, found]
      | some block =>
        have notReady := (sound.notReady blockHash block found).not.mpr done
        simp [Store.access, found, notReady]

theorem kept_conserved {ops : OffloadingManager Hash State} {view : State → Store Hash}
    {valid : State → Prop} (simulates : Simulates ops view valid) (numBlocks : Nat)
    (protocol : Protocol Hash State) (kept : Kept view valid numBlocks protocol) :
    Conserved ops numBlocks protocol := by
  have sound := kept.sound
  obtain ⟨unique, member⟩ := simulates.entries protocol.manager kept.valid
  have bounded := sound.bounded
  have held (blockId : Nat) :
      blockId ∈ (ops.entries protocol.manager).map (fun entry => entry.2.blockId) ↔
        ∃ blockHash block, (view protocol.manager).blocks blockHash = some block ∧
          block.blockId = blockId := by
    rw [List.mem_map]
    constructor
    · rintro ⟨entry, inside, rfl⟩
      exact ⟨entry.1, entry.2, (member entry).mp inside, rfl⟩
    · rintro ⟨blockHash, block, here, rfl⟩
      exact ⟨(blockHash, block), (member (blockHash, block)).mpr here, rfl⟩
  have placed (blockId : Nat) : (blockId ∈ (ops.entries protocol.manager).map
        (fun entry => entry.2.blockId) ∨
      blockId ∈ (view protocol.manager).backend.allocatedBlocksFreeList) ↔
        blockId < (view protocol.manager).backend.numAllocatedBlocks := by
    rw [sound.placed, held]
    exact or_comm
  constructor
  · rw [simulates.backend]
    apply (perm_ext_iff_of_nodup _ nodup_range).mpr
    · intro blockId
      rw [mem_append, mem_append, placed, mem_range'_1, mem_range]
      omega
    · have cachedNodup : ((ops.entries protocol.manager).map fun entry => entry.2.blockId).Nodup := by
        apply Nodup.map_on _ (Nodup.of_map Prod.fst unique)
        intro left leftIn right rightIn same
        have leftHere := (member left).mp leftIn
        have rightHere := (member right).mp rightIn
        have equal := sound.distinct _ _ _ _ leftHere rightHere same
        rw [equal, rightHere] at leftHere
        exact Prod.ext equal (some.inj leftHere).symm
      rw [nodup_append, nodup_append]
      refine ⟨⟨cachedNodup, sound.freeNodup, ?_⟩, nodup_range', ?_⟩
      · rintro blockId isHeld _ isFree rfl
        obtain ⟨blockHash, block, here, rfl⟩ := (held blockId).mp isHeld
        exact sound.unfree blockHash block here isFree
      · rintro blockId isPlaced _ isNew rfl
        rw [mem_append, placed] at isPlaced
        rw [mem_range'_1] at isNew
        omega
  · intro pending isPending
    rcases mem_append.mp isPending with isLoad | isStore
    · obtain ⟨block, here, same, -⟩ := sound.loading pending isLoad
      exact ⟨block, (member (pending.1, block)).mpr here, same⟩
    · obtain ⟨block, here, same⟩ := sound.storing pending isStore
      exact ⟨block, (member (pending.1, block)).mpr here, same⟩
  · intro blockHashes
    rw [simulates.lookup protocol.manager blockHashes kept.valid]
    exact hitCount_completed sound blockHashes

theorem init_sound (numBlocks : Nat) :
    Store.Sound numBlocks ([] : List (Hash × Nat)) [] [] ⟨fun _ => none, .init numBlocks⟩ := by
  constructor
  · rfl
  · exact Nat.zero_le _
  · exact nodup_nil
  · simp [CPUBackend.init]
  · intro blockHash block here
    cases here
  · intro left right leftBlock rightBlock here
    cases here
  · intro blockHash block here
    cases here
  · intro pending member
    cases member
  · intro pending member
    cases member
  · exact nodup_nil
  · simp

/-! The loops over single hashes. -/

section Loops
variable {access : Access Hash State} {view : State → Store Hash} {valid : State → Prop}

/-- The status of a hash is the one of the store, and changing it changes the store's. -/
structure Reads (access : Access Hash State) (view : State → Store Hash) (valid : State → Prop) :
    Prop where
  get : ∀ state blockHash, access.get state blockHash = (view state).blocks blockHash
  put : ∀ state blockHash old block, valid state → access.get state blockHash = some old →
    valid (access.put state blockHash block) ∧
      view (access.put state blockHash block) = (view state).put blockHash block

theorem hitCount_view (reads : Reads access view valid) {state : State} {blockHashes : List Hash} :
    access.hitCount state blockHashes = Store.access.hitCount (view state) blockHashes := by
  induction blockHashes with
  | nil => rfl
  | cons blockHash rest ih =>
    rw [Access.hitCount, reads.get, ih]
    rfl

theorem Store.access_get (store : Store Hash) (blockHash : Hash) :
    Store.access.get store blockHash = store.blocks blockHash := rfl

theorem loadAll_view (reads : Reads access view valid) (blockHashes : List Hash) (state : State)
    (next : Store Hash) (blockIds : List Nat) (isValid : valid state)
    (loaded : Store.access.loadAll blockHashes (view state) = some (next, blockIds)) :
    ∃ after, access.loadAll blockHashes state = some (after, blockIds) ∧ valid after ∧
      view after = next := by
  induction blockHashes generalizing state blockIds with
  | nil =>
    cases loaded
    exact ⟨state, rfl, isValid, rfl⟩
  | cons blockHash rest ih =>
    rw [Access.loadAll] at loaded ⊢
    rw [reads.get]
    rw [Store.access_get] at loaded
    cases found : (view state).blocks blockHash with
    | none => simp [found] at loaded
    | some block =>
      simp only [found] at loaded ⊢
      split at loaded
      · rename_i ready
        obtain ⟨isValid', same⟩ := reads.put state blockHash block
          { block with refCnt := block.refCnt + 1 } isValid ((reads.get _ _).trans found)
        rw [map_eq_some_iff] at loaded
        obtain ⟨⟨last, ids⟩, others, equal⟩ := loaded
        cases equal
        obtain ⟨after, done, isValid'', rfl⟩ := ih _ ids isValid' (by rw [same]; exact others)
        exact ⟨after, by rw [if_pos ready, done]; rfl, isValid'', rfl⟩
      · cases loaded

theorem unloadAll_view (reads : Reads access view valid) (blockHashes : List Hash) (state : State)
    (next : Store Hash) (isValid : valid state)
    (unloaded : Store.access.unloadAll blockHashes (view state) = some next) :
    ∃ after, access.unloadAll blockHashes state = some after ∧ valid after ∧ view after = next := by
  induction blockHashes generalizing state with
  | nil =>
    cases unloaded
    exact ⟨state, rfl, isValid, rfl⟩
  | cons blockHash rest ih =>
    rw [Access.unloadAll] at unloaded ⊢
    rw [reads.get]
    rw [Store.access_get] at unloaded
    cases found : (view state).blocks blockHash with
    | none => simp [found] at unloaded
    | some block =>
      simp only [found] at unloaded ⊢
      split at unloaded
      · rename_i positive
        obtain ⟨isValid', same⟩ := reads.put state blockHash block
          { block with refCnt := block.refCnt - 1 } isValid ((reads.get _ _).trans found)
        obtain ⟨after, done, isValid'', rfl⟩ := ih _ isValid' (by rw [same]; exact unloaded)
        exact ⟨after, by rw [if_pos positive, done], isValid'', rfl⟩
      · cases unloaded

theorem completeEach_view {one : State → Hash → Option (State × Bool)} {success : Bool}
    (completes : ∀ state blockHash next, valid state →
      (view state).complete success blockHash = some next →
      ∃ after stored, one state blockHash = some (after, stored) ∧ valid after ∧ view after = next)
    (blockHashes : List Hash) (state : State) (next : Store Hash) (isValid : valid state)
    (completed : Store.completeAll success blockHashes (view state) = some next) :
    ∃ after stored, completeEach one blockHashes state = some (after, stored) ∧ valid after ∧
      view after = next := by
  induction blockHashes generalizing state with
  | nil =>
    cases completed
    exact ⟨state, [], rfl, isValid, rfl⟩
  | cons blockHash rest ih =>
    rw [Store.completeAll, bind_eq_some_iff] at completed
    obtain ⟨middle, first, others⟩ := completed
    obtain ⟨after, stored, done, isValid', rfl⟩ := completes state blockHash middle isValid first
    obtain ⟨last, more, rest', isValid'', rfl⟩ := ih after isValid' others
    refine ⟨last, if stored = true then blockHash :: more else more, ?_, isValid'', rfl⟩
    rw [completeEach, done]
    simp only [bind_eq_bind, bind_some, rest']

end Loops
/-! The LRU manager. -/

section LRU

def lruOps : OffloadingManager Hash (LRUOffloadingManager Hash) where
  entries self := self.blocks.entries
  backend := LRUOffloadingManager.backend
  lookup := LRUOffloadingManager.lookup
  touch := LRUOffloadingManager.touch
  prepareLoad := LRUOffloadingManager.prepareLoad
  completeLoad := LRUOffloadingManager.completeLoad
  prepareStore := LRUOffloadingManager.prepareStore
  completeStore := LRUOffloadingManager.completeStore

def lruView (self : LRUOffloadingManager Hash) : Store Hash := ⟨self.blocks.get?, self.backend⟩

theorem get?_set_update (blocks : Dict Hash BlockStatus) (blockHash : Hash) (block : BlockStatus) :
    (blocks.set blockHash block).get? = Function.update blocks.get? blockHash (some block) := by
  funext other
  rw [get?_set, update_apply]

theorem get?_erase_update (blocks : Dict Hash BlockStatus) (blockHash : Hash) :
    (blocks.erase blockHash).get? = Function.update blocks.get? blockHash none := by
  funext other
  rw [get?_erase, update_apply]

theorem get?_moveToEnd {Value : Type} {blocks : Dict Hash Value} {blockHash other : Hash} :
    (blocks.moveToEnd blockHash).get? other = blocks.get? other := by
  rw [moveToEnd]
  split
  · rename_i value found
    rw [get?_set, get?_erase]
    by_cases same : other = blockHash
    · rw [if_pos same, same, found]
    · rw [if_neg same, if_neg same]
  · rfl

variable (self : LRUOffloadingManager Hash)

theorem lru_put {blockHash : Hash} {block : BlockStatus} :
    lruView (LRUOffloadingManager.access.put self blockHash block) =
      (lruView self).put blockHash block := by
  simp only [lruView, LRUOffloadingManager.access, Store.put, get?_set_update]

theorem lru_reads : Reads (LRUOffloadingManager.access : Access Hash _) lruView fun _ => True where
  get _ _ := rfl
  put self _ _ _ _ _ := ⟨trivial, lru_put self⟩

theorem lru_touch (blockHashes : List Hash) : lruView (self.touch blockHashes) = lruView self := by
  rw [LRUOffloadingManager.touch]
  generalize blockHashes.reverse = order
  induction order generalizing self with
  | nil => rfl
  | cons blockHash rest ih =>
    rw [foldl_cons, ih]
    simp only [lruView, LRUOffloadingManager.touchOne]
    congr 1
    funext other
    exact get?_moveToEnd

theorem lru_completeOne {success : Bool} {self : LRUOffloadingManager Hash} {blockHash : Hash}
    {next : Store Hash} (completed : (lruView self).complete success blockHash = some next) :
    ∃ after stored, LRUOffloadingManager.completeOne success self blockHash = some (after, stored) ∧
      True ∧ lruView after = next := by
  have held : (lruView self).blocks blockHash = self.blocks.get? blockHash := rfl
  rw [Store.complete, held] at completed
  rw [LRUOffloadingManager.completeOne]
  cases found : self.blocks.get? blockHash with
  | none => simp [found] at completed
  | some block =>
    simp only [found] at completed ⊢
    split at completed
    · cases completed
    · rename_i notReady
      rw [if_neg notReady]
      split at completed
      · rename_i succeeded
        cases completed
        exact ⟨_, true, by rw [if_pos succeeded], trivial, lru_put self⟩
      · rename_i failed
        cases completed
        refine ⟨{ self with
          backend := self.backend.free block
          blocks := self.blocks.erase blockHash }, false, by rw [if_neg failed], trivial, ?_⟩
        simp only [lruView, get?_erase_update]

/-- What is selected: enough idle blocks that are not protected, each once. -/
theorem selectEvictions_some (isProtected : List Hash) (count : Nat)
    (entries : List (Hash × BlockStatus)) (toEvict : List Hash)
    (selected : LRUOffloadingManager.selectEvictions isProtected count entries = some toEvict) :
    toEvict.length = count ∧ toEvict.Sublist (entries.map Prod.fst) ∧
      ∀ blockHash ∈ toEvict, blockHash ∉ isProtected ∧
        ∃ block, (blockHash, block) ∈ entries ∧ block.refCnt = 0 := by
  induction entries generalizing count toEvict with
  | nil =>
    cases count with
    | zero =>
      cases selected
      exact ⟨rfl, Sublist.refl _, by rintro _ ⟨⟩⟩
    | succ count => cases selected
  | cons entry rest ih =>
    obtain ⟨blockHash, block⟩ := entry
    cases count with
    | zero =>
      cases selected
      exact ⟨rfl, nil_sublist _, by rintro _ ⟨⟩⟩
    | succ count =>
      rw [LRUOffloadingManager.selectEvictions] at selected
      split at selected
      · rename_i idle
        rw [map_eq_some_iff] at selected
        obtain ⟨others, more, rfl⟩ := selected
        obtain ⟨length, sublist, each⟩ := ih count others more
        refine ⟨by rw [length_cons, length], sublist.cons_cons blockHash, ?_⟩
        intro other member
        rcases mem_cons.mp member with rfl | later
        · exact ⟨idle.2, block, mem_cons_self, idle.1⟩
        · obtain ⟨free, held, inside, zero⟩ := each other later
          exact ⟨free, held, mem_cons_of_mem _ inside, zero⟩
      · obtain ⟨length, sublist, each⟩ := ih (count + 1) toEvict selected
        refine ⟨length, sublist.cons blockHash, ?_⟩
        intro other member
        obtain ⟨free, held, inside, zero⟩ := each other member
        exact ⟨free, held, mem_cons_of_mem _ inside, zero⟩

theorem lru_evictAll (toEvict : List Hash) (self : LRUOffloadingManager Hash) (nodup : toEvict.Nodup)
    (idle : ∀ blockHash ∈ toEvict, ∃ block, self.blocks.get? blockHash = some block ∧
      block.refCnt = 0) :
    ∃ after, LRUOffloadingManager.evictAll toEvict self = some after ∧
      Store.evictAll toEvict (lruView self) = some (lruView after) := by
  induction toEvict generalizing self with
  | nil => exact ⟨self, rfl, rfl⟩
  | cons blockHash rest ih =>
    rw [nodup_cons] at nodup
    obtain ⟨block, found, zero⟩ := idle blockHash mem_cons_self
    obtain ⟨after, done, same⟩ := ih
      { self with backend := self.backend.free block, blocks := self.blocks.erase blockHash } nodup.2
      (fun other member => by
        obtain ⟨held, here, none⟩ := idle other (mem_cons_of_mem blockHash member)
        have differs : other ≠ blockHash := fun same => nodup.1 (same ▸ member)
        exact ⟨held, by rw [get?_erase, if_neg differs, here], none⟩)
    refine ⟨after, ?_, ?_⟩
    · rw [LRUOffloadingManager.evictAll, found]
      exact done
    · have evicts : (lruView self).evict blockHash = some (lruView { self with
          backend := self.backend.free block, blocks := self.blocks.erase blockHash }) := by
        simp only [Store.evict, lruView, found, zero, ↓reduceIte, get?_erase_update]
      rw [Store.evictAll, evicts]
      exact same

theorem lru_insertAll {stored : List (Hash × BlockStatus)} (self : LRUOffloadingManager Hash) :
    lruView (self.insertAll stored) = (lruView self).putAll stored := by
  induction stored generalizing self with
  | nil => rfl
  | cons entry rest ih =>
    refine (ih (LRUOffloadingManager.access.put self entry.1 entry.2)).trans ?_
    rw [lru_put]
    rfl

theorem lru_storeNew (toStore toEvict : List Hash) (next : Store Hash) (blockIds : List Nat)
    (stored : Store.storeAll toStore (lruView self) = some (next, blockIds)) :
    ∃ after, self.storeNew toStore toEvict = some (after, some ⟨toStore, blockIds, toEvict⟩) ∧
      lruView after = next := by
  rw [Store.storeAll, map_eq_some_iff] at stored
  obtain ⟨⟨backend, blocks⟩, allocated, equal⟩ := stored
  cases equal
  refine ⟨_, ?_, lru_insertAll { self with backend := backend }⟩
  change self.backend.allocateBlocks toStore.length = _ at allocated
  rw [LRUOffloadingManager.storeNew, allocated]
  rfl

theorem lru_prepareStore (blockHashes : List Hash) :
    ∃ toEvict middle, (∀ blockHash ∈ toEvict, blockHash ∉ blockHashes) ∧
      Store.evictAll toEvict (lruView self) = some middle ∧
      ((∃ after, self.prepareStore blockHashes = some (after, none) ∧ True ∧ lruView after = middle) ∨
        (blockHashes.filter fun blockHash => ((lruView self).blocks blockHash).isNone).length ≤
            (lruView self).backend.getNumFreeBlocks + toEvict.length ∧
          ∀ next blockIds, Store.storeAll
              (blockHashes.filter fun blockHash => ((lruView self).blocks blockHash).isNone) middle =
                some (next, blockIds) →
            ∃ after, self.prepareStore blockHashes = some (after, some
                ⟨blockHashes.filter fun blockHash => ((lruView self).blocks blockHash).isNone,
                  blockIds, toEvict⟩) ∧ True ∧ lruView after = next) := by
  have toStoreIs : (blockHashes.filter fun blockHash => !self.blocks.contains blockHash) =
      blockHashes.filter fun blockHash => ((lruView self).blocks blockHash).isNone := by
    apply filter_congr
    intro blockHash _
    rw [Dict.contains, not_isSome]
    rfl
  simp only [LRUOffloadingManager.prepareStore, toStoreIs]
  generalize (blockHashes.filter fun blockHash => ((lruView self).blocks blockHash).isNone) = toStore
  cases selected : LRUOffloadingManager.selectEvictions blockHashes
      (toStore.length - self.backend.getNumFreeBlocks) self.blocks.entries with
  | none => exact ⟨[], lruView self, by rintro _ ⟨⟩, rfl, .inl ⟨self, rfl, trivial, rfl⟩⟩
  | some toEvict =>
    obtain ⟨length, sublist, each⟩ := selectEvictions_some blockHashes _ _ toEvict selected
    obtain ⟨evicted, done, same⟩ := lru_evictAll toEvict self (sublist.nodup self.blocks.unique)
      fun blockHash member => by
        obtain ⟨-, block, inside, zero⟩ := each blockHash member
        exact ⟨block, (get?_eq_some_iff _).mpr inside, zero⟩
    refine ⟨toEvict, lruView evicted, fun blockHash member => (each blockHash member).1, same,
      .inr ⟨?_, ?_⟩⟩
    · change toStore.length ≤ self.backend.getNumFreeBlocks + toEvict.length
      omega
    · intro next blockIds stored
      obtain ⟨after, result, view⟩ := lru_storeNew
        { evicted with events := pushEvent evicted.events toEvict true } toStore toEvict next blockIds
        stored
      exact ⟨after, by simp only [done, result], trivial, view⟩

theorem lru_simulates : Simulates (lruOps : OffloadingManager Hash _) lruView fun _ => True where
  backend _ := rfl
  entries self _ := ⟨self.blocks.unique, fun entry => (get?_eq_some_iff _).symm⟩
  lookup self blockHashes _ := hitCount_view lru_reads
  touch self blockHashes _ := ⟨trivial, lru_touch self blockHashes⟩
  prepareLoad self blockHashes next blockIds _ loaded :=
    loadAll_view lru_reads blockHashes self next blockIds trivial loaded
  completeLoad self blockHashes next _ unloaded :=
    unloadAll_view lru_reads blockHashes self next trivial unloaded
  completeStore self blockHashes success next _ completed := by
    obtain ⟨after, stored, done, -, same⟩ := completeEach_view
      (fun self blockHash next _ => lru_completeOne)
      blockHashes self next trivial completed
    refine ⟨{ after with events := pushEvent after.events stored false }, ?_, trivial, same⟩
    change LRUOffloadingManager.completeStore self blockHashes success = _
    rw [LRUOffloadingManager.completeStore, done]
    rfl
  prepareStore self blockHashes _ _ := lru_prepareStore self blockHashes

end LRU

end VllmDcu.Offloading

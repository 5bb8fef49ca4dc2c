import VllmDcu.Dict
import Mathlib.Data.List.Count

/-! Offloaded blocks over the CPU backend: which hash has which block, and the free
list. The managers keep their blocks in one or two ordered dictionaries; here they
are a function of the hash. `none` is a failed assertion or a missing key. -/
namespace VllmDcu
open List Function

/-- `ref_cnt` is -1 until the block is stored, then the number of loads. -/
structure BlockStatus where
  refCnt : Int
  blockId : Nat
  deriving DecidableEq, Repr

def BlockStatus.isReady (self : BlockStatus) : Bool := decide (0 ≤ self.refCnt)

structure CPUBackend where
  numBlocks : Nat
  numAllocatedBlocks : Nat
  allocatedBlocksFreeList : List Nat
  deriving DecidableEq, Repr

namespace CPUBackend

def init (numBlocks : Nat) : CPUBackend := ⟨numBlocks, 0, []⟩

def getNumFreeBlocks (self : CPUBackend) : Nat :=
  self.allocatedBlocksFreeList.length + self.numBlocks - self.numAllocatedBlocks

def freshBlocks : Nat → CPUBackend → CPUBackend × List BlockStatus
  | 0, self => (self, [])
  | count + 1, self =>
    let rest := freshBlocks count { self with numAllocatedBlocks := self.numAllocatedBlocks + 1 }
    (rest.1, ⟨-1, self.numAllocatedBlocks⟩ :: rest.2)

/-- `pop` takes the last one of the free list. -/
def reusedBlocks : Nat → CPUBackend → Option (CPUBackend × List BlockStatus)
  | 0, self => some (self, [])
  | count + 1, self => do
      let blockId ← self.allocatedBlocksFreeList.getLast?
      let rest ← reusedBlocks count
        { self with allocatedBlocksFreeList := self.allocatedBlocksFreeList.dropLast }
      some (rest.1, ⟨-1, blockId⟩ :: rest.2)

def allocateBlocks (self : CPUBackend) (count : Nat) : Option (CPUBackend × List BlockStatus) :=
  let numFreshBlocks := min count (self.numBlocks - self.numAllocatedBlocks)
  let numReusedBlocks := count - numFreshBlocks
  if numReusedBlocks ≤ self.allocatedBlocksFreeList.length then do
    let fresh := freshBlocks numFreshBlocks self
    let reused ← reusedBlocks numReusedBlocks fresh.1
    some (reused.1, fresh.2 ++ reused.2)
  else none

def free (self : CPUBackend) (block : BlockStatus) : CPUBackend :=
  { self with allocatedBlocksFreeList := self.allocatedBlocksFreeList ++ [block.blockId] }

/-- One block, a fresh one as long as there are any. -/
def allocateOne (self : CPUBackend) : Option (CPUBackend × BlockStatus) :=
  if self.numAllocatedBlocks < self.numBlocks then
    some ({ self with numAllocatedBlocks := self.numAllocatedBlocks + 1 },
      ⟨-1, self.numAllocatedBlocks⟩)
  else
    self.allocatedBlocksFreeList.getLast?.map fun blockId =>
      ({ self with allocatedBlocksFreeList := self.allocatedBlocksFreeList.dropLast }, ⟨-1, blockId⟩)

variable (self : CPUBackend)

@[simp] theorem allocateBlocks_zero : self.allocateBlocks 0 = some (self, []) := by
  simp [allocateBlocks, freshBlocks, reusedBlocks]

/-- Without fresh blocks all are reused. -/
theorem allocateBlocks_reused (count : Nat)
    (exhausted : ¬self.numAllocatedBlocks < self.numBlocks) :
    self.allocateBlocks count =
      if count ≤ self.allocatedBlocksFreeList.length then reusedBlocks count self else none := by
  have zero : self.numBlocks - self.numAllocatedBlocks = 0 := by omega
  rw [allocateBlocks, zero, Nat.min_zero, Nat.sub_zero]
  split
  · cases done : reusedBlocks count self <;> simp [freshBlocks, done]
  · rfl

/-- Allocating many blocks is allocating one after the other. -/
theorem allocateBlocks_succ (count : Nat) :
    self.allocateBlocks (count + 1) = self.allocateOne.bind fun first =>
      (first.1.allocateBlocks count).map fun rest => (rest.1, first.2 :: rest.2) := by
  by_cases fresh : self.numAllocatedBlocks < self.numBlocks
  · have split : min (count + 1) (self.numBlocks - self.numAllocatedBlocks) =
        min count (self.numBlocks - (self.numAllocatedBlocks + 1)) + 1 := by omega
    have reused : count + 1 - (min count (self.numBlocks - (self.numAllocatedBlocks + 1)) + 1) =
        count - min count (self.numBlocks - (self.numAllocatedBlocks + 1)) := by omega
    simp only [allocateBlocks, allocateOne, fresh, ↓reduceIte, Option.bind_some, split, reused,
      freshBlocks]
    split
    · cases reusedBlocks (count - min count (self.numBlocks - (self.numAllocatedBlocks + 1)))
        (freshBlocks (min count (self.numBlocks - (self.numAllocatedBlocks + 1)))
          { self with numAllocatedBlocks := self.numAllocatedBlocks + 1 }).1 <;> simp
    · rfl
  · rw [allocateBlocks_reused self _ fresh, allocateOne, if_neg fresh]
    cases last : self.allocatedBlocksFreeList.getLast? with
    | none =>
      rw [getLast?_eq_none_iff] at last
      simp [last]
    | some blockId =>
      obtain ⟨front, whole⟩ := getLast?_eq_some_iff.mp last
      have after := allocateBlocks_reused
        { self with allocatedBlocksFreeList := front } count fresh
      rw [Option.map_some, Option.bind_some]
      simp only [after, reusedBlocks, whole, dropLast_concat, length_append,
        length_singleton, Nat.add_le_add_iff_right]
      split
      · cases reusedBlocks count { self with allocatedBlocksFreeList := front } <;> simp
      · rfl

end CPUBackend

/-! How a manager reaches the status of a hash. -/

structure Access (Hash State : Type) where
  get : State → Hash → Option BlockStatus
  put : State → Hash → BlockStatus → State

namespace Access
variable {Hash State : Type} (access : Access Hash State)

/-- `hit_count` of `lookup` -/
def hitCount (state : State) : List Hash → Nat
  | [] => 0
  | blockHash :: rest =>
    match access.get state blockHash with
    | some block => if block.isReady then hitCount state rest + 1 else 0
    | none => 0

/-- The loop of `prepare_load`, with the block ids for the load. -/
def loadAll : List Hash → State → Option (State × List Nat)
  | [], state => some (state, [])
  | blockHash :: rest, state =>
    match access.get state blockHash with
    | some block =>
      if block.isReady then
        (loadAll rest (access.put state blockHash { block with refCnt := block.refCnt + 1 })).map
          fun loaded => (loaded.1, block.blockId :: loaded.2)
      else none
    | none => none

/-- The loop of `complete_load`. -/
def unloadAll : List Hash → State → Option State
  | [], state => some state
  | blockHash :: rest, state =>
    match access.get state blockHash with
    | some block =>
      if 0 < block.refCnt then
        unloadAll rest (access.put state blockHash { block with refCnt := block.refCnt - 1 })
      else none
    | none => none

end Access

/-- The blocks by their hashes, in no order. -/
structure Store (Hash : Type) where
  blocks : Hash → Option BlockStatus
  backend : CPUBackend

namespace Store
variable {Hash : Type} [DecidableEq Hash]

def put (store : Store Hash) (blockHash : Hash) (block : BlockStatus) : Store Hash :=
  { store with blocks := Function.update store.blocks blockHash (some block) }

def access : Access Hash (Store Hash) := ⟨Store.blocks, put⟩

/-- A block without a transfer gives its place back. -/
def evict (store : Store Hash) (blockHash : Hash) : Option (Store Hash) :=
  match store.blocks blockHash with
  | some block =>
    if block.refCnt = 0 then
      some ⟨Function.update store.blocks blockHash none, store.backend.free block⟩
    else none
  | none => none

def evictAll : List Hash → Store Hash → Option (Store Hash)
  | [], store => some store
  | blockHash :: rest, store => (store.evict blockHash).bind (evictAll rest)

/-- New hashes with the blocks that were allocated for them. -/
def putAll (store : Store Hash) (stored : List (Hash × BlockStatus)) : Store Hash :=
  stored.foldl (fun store entry => store.put entry.1 entry.2) store

def storeAll (hashes : List Hash) (store : Store Hash) : Option (Store Hash × List Nat) :=
  (store.backend.allocateBlocks hashes.length).map fun allocated =>
    (putAll { store with backend := allocated.1 } (hashes.zip allocated.2),
      allocated.2.map BlockStatus.blockId)

/-- A store that is done, or its block given back when it failed. -/
def complete (success : Bool) (store : Store Hash) (blockHash : Hash) : Option (Store Hash) :=
  match store.blocks blockHash with
  | some block =>
    if block.isReady then none
    else if success then some (store.put blockHash { block with refCnt := 0 })
    else some ⟨Function.update store.blocks blockHash none, store.backend.free block⟩
  | none => none

def completeAll (success : Bool) : List Hash → Store Hash → Option (Store Hash)
  | [], store => some store
  | blockHash :: rest, store => (store.complete success blockHash).bind (completeAll success rest)

/-! What holds between the calls: the pending loads and stores with their blocks, and
the hashes that are stored and completed. -/

structure Sound (numBlocks : Nat) (loads stores : List (Hash × Nat)) (completed : List Hash)
    (store : Store Hash) : Prop where
  size : store.backend.numBlocks = numBlocks
  bounded : store.backend.numAllocatedBlocks ≤ numBlocks
  freeNodup : store.backend.allocatedBlocksFreeList.Nodup
  placed : ∀ blockId, blockId < store.backend.numAllocatedBlocks ↔
    blockId ∈ store.backend.allocatedBlocksFreeList ∨
      ∃ blockHash block, store.blocks blockHash = some block ∧ block.blockId = blockId
  unfree : ∀ blockHash block, store.blocks blockHash = some block →
    block.blockId ∉ store.backend.allocatedBlocksFreeList
  distinct : ∀ left right leftBlock rightBlock, store.blocks left = some leftBlock →
    store.blocks right = some rightBlock → leftBlock.blockId = rightBlock.blockId → left = right
  refs : ∀ blockHash block, store.blocks blockHash = some block →
    block.refCnt = if blockHash ∈ stores.map Prod.fst then -1
      else ((loads.map Prod.fst).count blockHash : Int)
  loading : ∀ pending ∈ loads, ∃ block, store.blocks pending.1 = some block ∧
    block.blockId = pending.2 ∧ pending.1 ∉ stores.map Prod.fst
  storing : ∀ pending ∈ stores, ∃ block, store.blocks pending.1 = some block ∧
    block.blockId = pending.2
  once : (stores.map Prod.fst).Nodup
  complete : ∀ blockHash, blockHash ∈ completed ↔
    blockHash ∉ stores.map Prod.fst ∧ ∃ block, store.blocks blockHash = some block

/-! What the single steps keep. -/

section Steps
variable {numBlocks : Nat} {loads stores : List (Hash × Nat)} {completed : List Hash}
  {store : Store Hash}

/-- A block keeps its place when only its count changes. -/
theorem put_blocks (store : Store Hash) (blockHash other : Hash) (block : BlockStatus) :
    (store.put blockHash block).blocks other =
      if other = blockHash then some block else store.blocks other := by
  simp only [put, update_apply]

theorem put_some {blockHash : Hash} {old : BlockStatus} (found : store.blocks blockHash = some old)
    (refCnt : Int) (other : Hash) (block : BlockStatus)
    (here : (store.put blockHash { old with refCnt := refCnt }).blocks other = some block) :
    ∃ before, store.blocks other = some before ∧ before.blockId = block.blockId ∧
      block.refCnt = if other = blockHash then refCnt else before.refCnt := by
  rw [put_blocks] at here
  split at here
  · rename_i same
    cases here
    exact ⟨old, same ▸ found, rfl, (if_pos same).symm⟩
  · rename_i differs
    exact ⟨block, here, rfl, (if_neg differs).symm⟩

theorem put_cached {blockHash : Hash} {old : BlockStatus} (found : store.blocks blockHash = some old)
    (refCnt : Int) (other : Hash) (block : BlockStatus) (here : store.blocks other = some block) :
    ∃ after, (store.put blockHash { old with refCnt := refCnt }).blocks other = some after ∧
      after.blockId = block.blockId := by
  rw [put_blocks]
  split
  · rename_i same
    rw [same, found] at here
    cases here
    exact ⟨_, rfl, rfl⟩
  · exact ⟨block, here, rfl⟩

section
variable (sound : Sound numBlocks loads stores completed store)
include sound

/-- Changing the count of one block keeps everything that is not about counts. -/
theorem Sound.put_refCnt {blockHash : Hash}
    {old : BlockStatus} (found : store.blocks blockHash = some old) (refCnt : Int)
    (loads' stores' : List (Hash × Nat)) (completed' : List Hash)
    (refs : ∀ other before, store.blocks other = some before →
      (if other = blockHash then refCnt else before.refCnt) =
        if other ∈ stores'.map Prod.fst then -1 else ((loads'.map Prod.fst).count other : Int))
    (loading : ∀ pending ∈ loads', ∃ block, store.blocks pending.1 = some block ∧
      block.blockId = pending.2 ∧ pending.1 ∉ stores'.map Prod.fst)
    (storing : ∀ pending ∈ stores', ∃ block, store.blocks pending.1 = some block ∧
      block.blockId = pending.2)
    (once : (stores'.map Prod.fst).Nodup)
    (complete : ∀ other, other ∈ completed' ↔
      other ∉ stores'.map Prod.fst ∧ ∃ block, store.blocks other = some block) :
    Sound numBlocks loads' stores' completed' (store.put blockHash { old with refCnt := refCnt }) := by
  have before := put_some found refCnt
  have after := put_cached found refCnt
  constructor
  · exact sound.size
  · exact sound.bounded
  · exact sound.freeNodup
  · intro blockId
    refine (sound.placed blockId).trans (or_congr_right ?_)
    constructor
    · rintro ⟨other, block, here, rfl⟩
      obtain ⟨block', here', same⟩ := after other block here
      exact ⟨other, block', here', same⟩
    · rintro ⟨other, block, here, rfl⟩
      obtain ⟨block', here', same, -⟩ := before other block here
      exact ⟨other, block', here', same⟩
  · intro other block here
    obtain ⟨block', here', same, -⟩ := before other block here
    exact same ▸ sound.unfree other block' here'
  · intro left right leftBlock rightBlock leftHere rightHere same
    obtain ⟨left', leftHere', leftSame, -⟩ := before left leftBlock leftHere
    obtain ⟨right', rightHere', rightSame, -⟩ := before right rightBlock rightHere
    exact sound.distinct left right left' right' leftHere' rightHere'
      (leftSame.trans (same.trans rightSame.symm))
  · intro other block here
    obtain ⟨block', here', -, count⟩ := before other block here
    exact count.trans (refs other block' here')
  · intro pending member
    obtain ⟨block, here, same, free⟩ := loading pending member
    obtain ⟨block', here', same'⟩ := after pending.1 block here
    exact ⟨block', here', same'.trans same, free⟩
  · intro pending member
    obtain ⟨block, here, same⟩ := storing pending member
    obtain ⟨block', here', same'⟩ := after pending.1 block here
    exact ⟨block', here', same'.trans same⟩
  · exact once
  · intro other
    refine (complete other).trans (and_congr_right fun _ => ?_)
    constructor
    · rintro ⟨block, here⟩
      obtain ⟨block', here', -⟩ := after other block here
      exact ⟨block', here'⟩
    · rintro ⟨block, here⟩
      obtain ⟨block', here', -⟩ := before other block here
      exact ⟨block', here'⟩

/-- A completed hash is cached and ready. -/
theorem Sound.ready (blockHash : Hash) (done : blockHash ∈ completed) :
    ∃ block, store.blocks blockHash = some block ∧ block.isReady = true ∧
      block.refCnt = ((loads.map Prod.fst).count blockHash : Int) := by
  obtain ⟨notStoring, block, found⟩ := (sound.complete blockHash).mp done
  have count := sound.refs blockHash block found
  rw [if_neg notStoring] at count
  refine ⟨block, found, ?_, count⟩
  rw [BlockStatus.isReady, count]
  simp

theorem Sound.notReady (blockHash : Hash)
    (block : BlockStatus) (found : store.blocks blockHash = some block) :
    block.isReady = true ↔ blockHash ∈ completed := by
  rw [BlockStatus.isReady, sound.refs blockHash block found, sound.complete]
  by_cases storing : blockHash ∈ stores.map Prod.fst
  · simp [storing]
  · simp [storing, found]

theorem Sound.load (blockHash : Hash) (done : blockHash ∈ completed) :
    ∃ block, store.blocks blockHash = some block ∧ block.isReady = true ∧
      Sound numBlocks (loads ++ [(blockHash, block.blockId)]) stores completed
        (store.put blockHash { block with refCnt := block.refCnt + 1 }) := by
  obtain ⟨block, found, ready, count⟩ := sound.ready blockHash done
  obtain ⟨notStoring, -⟩ := (sound.complete blockHash).mp done
  refine ⟨block, found, ready, sound.put_refCnt found _ _ _ _ ?_ ?_ sound.storing sound.once
    sound.complete⟩
  · intro other before here
    by_cases same : other = blockHash
    · rw [same, if_neg notStoring, count]
      simp
    · rw [if_neg same, sound.refs other before here]
      simp [Ne.symm same]
  · intro pending member
    rcases mem_append.mp member with old | new
    · exact sound.loading pending old
    · rw [mem_singleton.mp new]
      exact ⟨block, found, rfl, notStoring⟩

end

variable (hashes : List Hash)

theorem loadAll_sound (store : Store Hash) (loads : List (Hash × Nat))
    (sound : Sound numBlocks loads stores completed store)
    (done : ∀ blockHash ∈ hashes, blockHash ∈ completed) :
    ∃ next blockIds, access.loadAll hashes store = some (next, blockIds) ∧
      Sound numBlocks (loads ++ hashes.zip blockIds) stores completed next := by
  induction hashes generalizing store loads with
  | nil => exact ⟨store, [], rfl, by simpa using sound⟩
  | cons blockHash rest ih =>
    obtain ⟨block, found, ready, sound'⟩ := sound.load blockHash (done blockHash mem_cons_self)
    obtain ⟨next, blockIds, loaded, sound''⟩ := ih _ _ sound' fun other member =>
      done other (mem_cons_of_mem blockHash member)
    refine ⟨next, block.blockId :: blockIds, ?_, ?_⟩
    · simp only [Access.loadAll, access, found, ready, ↓reduceIte]
      exact congrArg _ loaded
    · rw [append_assoc] at sound''
      exact sound''

/-- The pending loads after one of them is completed. -/
def dropLoad (loads : List (Hash × Nat)) (blockHash : Hash) : List (Hash × Nat) :=
  loads.eraseP fun pending => decide (pending.1 = blockHash)

theorem dropLoad_keys (loads : List (Hash × Nat)) (blockHash : Hash) :
    (dropLoad loads blockHash).map Prod.fst = (loads.map Prod.fst).erase blockHash := by
  rw [erase_eq_eraseP', eraseP_map]
  congr 1

theorem Sound.unload (sound : Sound numBlocks loads stores completed store) (blockHash : Hash)
    (pends : blockHash ∈ loads.map Prod.fst) :
    ∃ block, store.blocks blockHash = some block ∧ 0 < block.refCnt ∧
      Sound numBlocks (dropLoad loads blockHash) stores completed
        (store.put blockHash { block with refCnt := block.refCnt - 1 }) := by
  obtain ⟨pending, member, rfl⟩ := mem_map.mp pends
  obtain ⟨block, found, -, notStoring⟩ := sound.loading pending member
  have count := sound.refs pending.1 block found
  rw [if_neg notStoring] at count
  have positive := count_pos_iff.mpr pends
  refine ⟨block, found, by omega, sound.put_refCnt found _ _ _ _ ?_ ?_ sound.storing sound.once
    sound.complete⟩
  · intro other before here
    rw [dropLoad_keys]
    by_cases same : other = pending.1
    · rw [if_pos same, same, if_neg notStoring, count_erase_self]
      omega
    · rw [if_neg same, sound.refs other before here, count_erase_of_ne same]
  · intro other inLoads
    exact sound.loading other (mem_of_mem_eraseP inLoads)

theorem unloadAll_sound (store : Store Hash) (loads : List (Hash × Nat))
    (sound : Sound numBlocks loads stores completed store) (nodup : hashes.Nodup)
    (pend : ∀ blockHash ∈ hashes, blockHash ∈ loads.map Prod.fst) :
    ∃ next, access.unloadAll hashes store = some next ∧
      Sound numBlocks (hashes.foldl dropLoad loads) stores completed next := by
  induction hashes generalizing store loads with
  | nil => exact ⟨store, rfl, sound⟩
  | cons blockHash rest ih =>
    rw [nodup_cons] at nodup
    obtain ⟨block, found, positive, sound'⟩ := sound.unload blockHash (pend blockHash mem_cons_self)
    obtain ⟨next, unloaded, sound''⟩ := ih _ _ sound' nodup.2 fun other member => by
      have differs : other ≠ blockHash := fun same => nodup.1 (same ▸ member)
      rw [dropLoad_keys]
      exact (mem_erase_of_ne differs).mpr (pend other (mem_cons_of_mem blockHash member))
    refine ⟨next, ?_, sound''⟩
    simp only [Access.unloadAll, access, found, positive, ↓reduceIte]
    exact unloaded

/-- A block without loads gives its place back. -/
theorem Sound.remove (sound : Sound numBlocks loads stores completed store) {blockHash : Hash}
    {old : BlockStatus} (found : store.blocks blockHash = some old)
    (idle : blockHash ∉ loads.map Prod.fst) :
    Sound numBlocks loads (stores.filter fun pending => decide (pending.1 ≠ blockHash))
      (completed.filter fun other => decide (other ≠ blockHash))
      ⟨Function.update store.blocks blockHash none, store.backend.free old⟩ := by
  have kept (other : Hash) (block : BlockStatus) :
      update store.blocks blockHash none other = some block ↔
        other ≠ blockHash ∧ store.blocks other = some block := by
    by_cases same : other = blockHash <;> simp [same]
  have keys (other : Hash) (differs : other ≠ blockHash) :
      other ∈ (stores.filter fun pending => decide (pending.1 ≠ blockHash)).map Prod.fst ↔
        other ∈ stores.map Prod.fst := by
    simp only [mem_map, mem_filter, decide_eq_true_eq]
    constructor
    · rintro ⟨pending, ⟨member, -⟩, same⟩
      exact ⟨pending, member, same⟩
    · rintro ⟨pending, member, rfl⟩
      exact ⟨pending, ⟨member, differs⟩, rfl⟩
  constructor
  · exact sound.size
  · exact sound.bounded
  · refine nodup_append.mpr ⟨sound.freeNodup, by simp, ?_⟩
    rintro blockId inFree _ (_ | ⟨_, ⟨⟩⟩) rfl
    exact sound.unfree blockHash old found inFree
  · intro blockId
    refine (sound.placed blockId).trans ?_
    change _ ↔ blockId ∈ store.backend.allocatedBlocksFreeList ++ [old.blockId] ∨ _
    rw [mem_append, mem_singleton]
    constructor
    · rintro (inFree | ⟨other, block, here, rfl⟩)
      · exact .inl (.inl inFree)
      · by_cases same : other = blockHash
        · rw [same, found] at here
          cases here
          exact .inl (.inr rfl)
        · exact .inr ⟨other, block, (kept other block).mpr ⟨same, here⟩, rfl⟩
    · rintro ((inFree | rfl) | ⟨other, block, here, rfl⟩)
      · exact .inl inFree
      · exact .inr ⟨blockHash, old, found, rfl⟩
      · exact .inr ⟨other, block, ((kept other block).mp here).2, rfl⟩
  · intro other block here
    obtain ⟨differs, here'⟩ := (kept other block).mp here
    change block.blockId ∉ store.backend.allocatedBlocksFreeList ++ [old.blockId]
    rw [mem_append, mem_singleton, not_or]
    exact ⟨sound.unfree other block here', fun same =>
      differs (sound.distinct other blockHash block old here' found same)⟩
  · intro left right leftBlock rightBlock leftHere rightHere
    exact sound.distinct left right leftBlock rightBlock ((kept _ _).mp leftHere).2
      ((kept _ _).mp rightHere).2
  · intro other block here
    obtain ⟨differs, here'⟩ := (kept other block).mp here
    rw [sound.refs other block here']
    simp only [keys other differs]
  · intro pending member
    obtain ⟨block, here, same, free⟩ := sound.loading pending member
    have differs : pending.1 ≠ blockHash := fun equal =>
      idle (equal ▸ mem_map_of_mem (f := Prod.fst) member)
    exact ⟨block, (kept _ _).mpr ⟨differs, here⟩, same, fun inStores =>
      free ((keys _ differs).mp inStores)⟩
  · intro pending member
    obtain ⟨member, differs⟩ := mem_filter.mp member
    obtain ⟨block, here, same⟩ := sound.storing pending member
    exact ⟨block, (kept _ _).mpr ⟨of_decide_eq_true differs, here⟩, same⟩
  · exact ((filter_sublist (l := stores)).map Prod.fst).nodup sound.once
  · intro other
    rw [mem_filter, decide_eq_true_eq, sound.complete]
    constructor
    · rintro ⟨⟨notStoring, block, here⟩, differs⟩
      exact ⟨fun inStores => notStoring ((keys other differs).mp inStores), block,
        (kept other block).mpr ⟨differs, here⟩⟩
    · rintro ⟨notStoring, block, here⟩
      obtain ⟨differs, here'⟩ := (kept other block).mp here
      exact ⟨⟨fun inStores => notStoring ((keys other differs).mpr inStores), block, here'⟩, differs⟩

/-- Only a block without transfers can be evicted. -/
theorem Sound.evict (sound : Sound numBlocks loads stores completed store) (blockHash : Hash)
    (next : Store Hash) (evicted : store.evict blockHash = some next) :
    Sound numBlocks loads stores (completed.filter fun other => decide (other ≠ blockHash)) next ∧
      next.backend.getNumFreeBlocks = store.backend.getNumFreeBlocks + 1 := by
  rw [Store.evict] at evicted
  cases found : store.blocks blockHash with
  | none => simp [found] at evicted
  | some block =>
    by_cases idle : block.refCnt = 0
    · simp only [found, idle, ↓reduceIte, Option.some.injEq] at evicted
      have count := sound.refs blockHash block found
      have notStoring : blockHash ∉ stores.map Prod.fst := fun inStores => by
        rw [if_pos inStores] at count
        omega
      have notLoading : blockHash ∉ loads.map Prod.fst := fun inLoads => by
        have := count_pos_iff.mpr inLoads
        omega
      have untouched : stores.filter (fun pending => decide (pending.1 ≠ blockHash)) = stores := by
        apply filter_eq_self.mpr
        intro pending member
        simpa using fun same : pending.1 = blockHash =>
          notStoring (same ▸ mem_map_of_mem (f := Prod.fst) member)
      have removed := sound.remove found notLoading
      rw [untouched] at removed
      have bounded := sound.bounded
      have size := sound.size
      subst evicted
      refine ⟨removed, ?_⟩
      simp only [CPUBackend.getNumFreeBlocks, CPUBackend.free, length_append, length_singleton]
      omega
    · simp [found, idle] at evicted

/-- Evicting brings nothing in. -/
theorem evictAll_cached (store next : Store Hash) (evicted : evictAll hashes store = some next)
    (blockHash : Hash) (cached : (next.blocks blockHash).isSome = true) :
    (store.blocks blockHash).isSome = true := by
  induction hashes generalizing store with
  | nil =>
    cases evicted
    exact cached
  | cons first rest ih =>
    rw [evictAll, Option.bind_eq_some_iff] at evicted
    obtain ⟨middle, one, others⟩ := evicted
    have inMiddle := ih middle others
    rw [Store.evict] at one
    split at one
    · split at one
      · cases one
        change (update store.blocks first none blockHash).isSome = true at inMiddle
        rw [update_apply] at inMiddle
        split at inMiddle
        · cases inMiddle
        · exact inMiddle
      · cases one
    · cases one

theorem evictAll_sound (store next : Store Hash) (completed : List Hash)
    (sound : Sound numBlocks loads stores completed store)
    (evicted : evictAll hashes store = some next) :
    Sound numBlocks loads stores (completed.filter fun other => decide (other ∉ hashes)) next ∧
      next.backend.getNumFreeBlocks = store.backend.getNumFreeBlocks + hashes.length := by
  induction hashes generalizing store completed with
  | nil =>
    cases evicted
    exact ⟨by simpa using sound, rfl⟩
  | cons blockHash rest ih =>
    rw [evictAll, Option.bind_eq_some_iff] at evicted
    obtain ⟨middle, first, others⟩ := evicted
    obtain ⟨sound', more⟩ := sound.evict blockHash middle first
    obtain ⟨sound'', all⟩ := ih middle _ sound' others
    rw [filter_filter] at sound''
    refine ⟨?_, by rw [length_cons]; omega⟩
    convert sound'' using 2
    simp [mem_cons, not_or, Bool.and_comm]

theorem Sound.completeOne (sound : Sound numBlocks loads stores completed store) (success : Bool)
    (blockHash : Hash) (pends : blockHash ∈ stores.map Prod.fst) :
    ∃ next, store.complete success blockHash = some next ∧
      Sound numBlocks loads (stores.filter fun pending => decide (pending.1 ≠ blockHash))
        (if success then completed ++ [blockHash] else completed) next := by
  obtain ⟨pending, member, rfl⟩ := mem_map.mp pends
  obtain ⟨block, found, -⟩ := sound.storing pending member
  have notLoading : pending.1 ∉ loads.map Prod.fst := by
    intro inLoads
    obtain ⟨other, inLoads, same⟩ := mem_map.mp inLoads
    obtain ⟨_, _, _, free⟩ := sound.loading other inLoads
    exact free (same ▸ pends)
  have notDone : pending.1 ∉ completed := fun done => ((sound.complete pending.1).mp done).1 pends
  have notReady : block.isReady = false := by
    rw [← Bool.not_eq_true, sound.notReady pending.1 block found]
    exact notDone
  have keys (other : Hash) :
      other ∈ (stores.filter fun pending' => decide (pending'.1 ≠ pending.1)).map Prod.fst ↔
        other ∈ stores.map Prod.fst ∧ other ≠ pending.1 := by
    simp only [mem_map, mem_filter, decide_eq_true_eq]
    constructor
    · rintro ⟨entry, ⟨inStores, differs⟩, rfl⟩
      exact ⟨⟨entry, inStores, rfl⟩, differs⟩
    · rintro ⟨⟨entry, inStores, rfl⟩, differs⟩
      exact ⟨entry, ⟨inStores, differs⟩, rfl⟩
  cases success with
  | true =>
    refine ⟨store.put pending.1 { block with refCnt := 0 }, ?_, sound.put_refCnt found 0 _ _ _
      ?_ ?_ ?_ ?_ ?_⟩
    · simp [Store.complete, found, notReady]
    · intro other before here
      by_cases same : other = pending.1
      · rw [if_pos same, if_neg fun inStores => ((keys other).mp inStores).2 same, same,
          count_eq_zero_of_not_mem notLoading]
        rfl
      · rw [if_neg same, sound.refs other before here]
        simp only [keys, same, ne_eq, not_false_eq_true, and_true]
    · intro other inLoads
      obtain ⟨block', here, same, free⟩ := sound.loading other inLoads
      exact ⟨block', here, same, fun inStores => free ((keys other.1).mp inStores).1⟩
    · intro other inStores
      exact sound.storing other (mem_filter.mp inStores).1
    · exact ((filter_sublist (l := stores)).map Prod.fst).nodup sound.once
    · intro other
      rw [if_pos rfl, mem_append, sound.complete]
      by_cases same : other = pending.1
      · simp [same, found]
      · simp [same]
  | false =>
    have removed := sound.remove found notLoading
    have untouched : completed.filter (fun other => decide (other ≠ pending.1)) = completed := by
      apply filter_eq_self.mpr
      intro other member
      simpa using fun same : other = pending.1 => notDone (same ▸ member)
    rw [untouched] at removed
    refine ⟨_, ?_, removed⟩
    simp [Store.complete, found, notReady]

theorem completeAll_sound {success : Bool} {hashes : List Hash} (store : Store Hash)
    (stores : List (Hash × Nat)) (completed : List Hash)
    (sound : Sound numBlocks loads stores completed store) (nodup : hashes.Nodup)
    (pend : ∀ blockHash ∈ hashes, blockHash ∈ stores.map Prod.fst) :
    ∃ next, completeAll success hashes store = some next ∧
      Sound numBlocks loads (stores.filter fun pending => decide (pending.1 ∉ hashes))
        (if success then completed ++ hashes else completed) next := by
  induction hashes generalizing store stores completed with
  | nil => exact ⟨store, rfl, by cases success <;> simpa using sound⟩
  | cons blockHash rest ih =>
    rw [nodup_cons] at nodup
    obtain ⟨middle, first, sound'⟩ := sound.completeOne success blockHash (pend blockHash mem_cons_self)
    obtain ⟨next, others, sound''⟩ := ih middle _ _ sound' nodup.2 fun other member => by
      have differs : other ≠ blockHash := fun same => nodup.1 (same ▸ member)
      obtain ⟨pending, inStores, rfl⟩ := mem_map.mp (pend other (mem_cons_of_mem blockHash member))
      exact mem_map_of_mem (mem_filter.mpr ⟨inStores, decide_eq_true differs⟩)
    refine ⟨next, ?_, ?_⟩
    · rw [completeAll, first]
      exact others
    · rw [filter_filter] at sound''
      have completedAll : (if success = true then completed ++ blockHash :: rest else completed) =
          if success = true then (if success = true then completed ++ [blockHash] else completed) ++ rest
          else if success = true then completed ++ [blockHash] else completed := by
        cases success <;> simp
      convert sound'' using 2
      simp [mem_cons, not_or, Bool.and_comm]

theorem allocateOne_some (backend : CPUBackend) (bounded : backend.numAllocatedBlocks ≤ backend.numBlocks)
    (room : 0 < backend.getNumFreeBlocks) : ∃ next block, backend.allocateOne = some (next, block) := by
  rw [CPUBackend.allocateOne]
  split
  · exact ⟨_, _, rfl⟩
  · cases last : backend.allocatedBlocksFreeList.getLast? with
    | none =>
      rw [getLast?_eq_none_iff] at last
      rw [CPUBackend.getNumFreeBlocks, last, length_nil] at room
      omega
    | some blockId => exact ⟨_, _, rfl⟩

/-- A new hash gets a block that no other hash has. -/
theorem Sound.storeOne (sound : Sound numBlocks loads stores completed store) (blockHash : Hash)
    (new : store.blocks blockHash = none) (backend : CPUBackend) (block : BlockStatus)
    (allocated : store.backend.allocateOne = some (backend, block)) :
    Sound numBlocks loads (stores ++ [(blockHash, block.blockId)]) completed
        ⟨Function.update store.blocks blockHash (some block), backend⟩ ∧
      backend.getNumFreeBlocks + 1 = store.backend.getNumFreeBlocks := by
  -- which block it is, and what is left of the free list
  obtain ⟨refCnt, size, bounded, freeNodup, places, fresh, leaves, fewer⟩ :
      block.refCnt = -1 ∧ backend.numBlocks = numBlocks ∧ backend.numAllocatedBlocks ≤ numBlocks ∧
      backend.allocatedBlocksFreeList.Nodup ∧
      (∀ blockId, blockId < backend.numAllocatedBlocks ↔ blockId ∈ backend.allocatedBlocksFreeList ∨
        blockId = block.blockId ∨
        ∃ other held, store.blocks other = some held ∧ held.blockId = blockId) ∧
      (∀ other held, store.blocks other = some held → held.blockId ≠ block.blockId ∧
        held.blockId ∉ backend.allocatedBlocksFreeList) ∧
      block.blockId ∉ backend.allocatedBlocksFreeList ∧
      backend.getNumFreeBlocks + 1 = store.backend.getNumFreeBlocks := by
    have size := sound.size
    have bounded := sound.bounded
    rw [CPUBackend.allocateOne] at allocated
    split at allocated
    · cases allocated
      refine ⟨rfl, size, by change store.backend.numAllocatedBlocks + 1 ≤ numBlocks; omega,
        sound.freeNodup, ?_, ?_, ?_, ?_⟩
      · intro blockId
        change blockId < store.backend.numAllocatedBlocks + 1 ↔ _
        have := sound.placed blockId
        constructor
        · intro lt
          by_cases same : blockId = store.backend.numAllocatedBlocks
          · exact .inr (.inl same)
          · rcases this.mp (by omega) with inFree | held
            · exact .inl inFree
            · exact .inr (.inr held)
        · rintro (inFree | rfl | held)
          · exact Nat.lt_succ_of_lt (this.mpr (.inl inFree))
          · exact Nat.lt_succ_self _
          · exact Nat.lt_succ_of_lt (this.mpr (.inr held))
      · intro other held here
        have := (sound.placed held.blockId).mpr (.inr ⟨other, held, here, rfl⟩)
        exact ⟨Nat.ne_of_lt this, sound.unfree other held here⟩
      · intro inFree
        exact absurd ((sound.placed _).mpr (.inl inFree)) (Nat.lt_irrefl _)
      · simp only [CPUBackend.getNumFreeBlocks]
        omega
    · rw [Option.map_eq_some_iff] at allocated
      obtain ⟨blockId, last, same⟩ := allocated
      obtain ⟨front, whole⟩ := getLast?_eq_some_iff.mp last
      have nodup := sound.freeNodup
      rw [whole, dropLast_concat] at same
      rw [whole] at nodup
      cases same
      rw [nodup_append] at nodup
      refine ⟨rfl, size, bounded, nodup.1, ?_, ?_, ?_, ?_⟩
      · intro other
        refine (sound.placed other).trans ?_
        rw [whole, mem_append, mem_singleton, or_assoc]
      · intro other held here
        have := sound.unfree other held here
        rw [whole, mem_append, mem_singleton, not_or] at this
        exact ⟨this.2, this.1⟩
      · exact fun inFront => nodup.2.2 blockId inFront blockId (mem_singleton_self _) rfl
      · simp only [CPUBackend.getNumFreeBlocks, whole, length_append, length_singleton]
        omega
  have kept (other : Hash) (held : BlockStatus) :
      update store.blocks blockHash (some block) other = some held ↔
        other = blockHash ∧ held = block ∨ store.blocks other = some held := by
    by_cases same : other = blockHash
    · rw [same, new]
      simp [eq_comm]
    · simp [same]
  have notLoading : blockHash ∉ loads.map Prod.fst := by
    intro inLoads
    obtain ⟨pending, member, rfl⟩ := mem_map.mp inLoads
    obtain ⟨held, here, -⟩ := sound.loading pending member
    rw [new] at here
    cases here
  have notStoring : blockHash ∉ stores.map Prod.fst := by
    intro inStores
    obtain ⟨pending, member, rfl⟩ := mem_map.mp inStores
    obtain ⟨held, here, -⟩ := sound.storing pending member
    rw [new] at here
    cases here
  have keys : (stores ++ [(blockHash, block.blockId)]).map Prod.fst = stores.map Prod.fst ++ [blockHash] := by
    simp
  refine ⟨?_, fewer⟩
  constructor
  · exact size
  · exact bounded
  · exact freeNodup
  · intro blockId
    refine (places blockId).trans (or_congr_right ?_)
    constructor
    · rintro (rfl | ⟨other, held, here, rfl⟩)
      · exact ⟨blockHash, block, (kept _ _).mpr (.inl ⟨rfl, rfl⟩), rfl⟩
      · exact ⟨other, held, (kept _ _).mpr (.inr here), rfl⟩
    · rintro ⟨other, held, here, rfl⟩
      rcases (kept other held).mp here with ⟨-, rfl⟩ | here
      · exact .inl rfl
      · exact .inr ⟨other, held, here, rfl⟩
  · intro other held here
    rcases (kept other held).mp here with ⟨-, rfl⟩ | here
    · exact leaves
    · exact (fresh other held here).2
  · intro left right leftBlock rightBlock leftHere rightHere same
    rcases (kept _ _).mp leftHere with ⟨leftNew, leftIs⟩ | leftOld
    · rcases (kept _ _).mp rightHere with ⟨rightNew, -⟩ | rightOld
      · exact leftNew.trans rightNew.symm
      · exact absurd (same.symm.trans (congrArg _ leftIs)) (fresh right rightBlock rightOld).1
    · rcases (kept _ _).mp rightHere with ⟨-, rightIs⟩ | rightOld
      · exact absurd (same.trans (congrArg _ rightIs)) (fresh left leftBlock leftOld).1
      · exact sound.distinct left right leftBlock rightBlock leftOld rightOld same
  · intro other held here
    rw [keys]
    rcases (kept other held).mp here with ⟨rfl, rfl⟩ | old
    · rw [if_pos (mem_append_right _ (mem_singleton_self _)), refCnt]
    · have differs : other ≠ blockHash := by
        rintro rfl
        rw [new] at old
        cases old
      rw [sound.refs other held old]
      simp only [mem_append, mem_singleton, differs, or_false]
  · intro pending member
    obtain ⟨held, here, same, free⟩ := sound.loading pending member
    refine ⟨held, (kept _ _).mpr (.inr here), same, ?_⟩
    rw [keys, mem_append, mem_singleton, not_or]
    exact ⟨free, fun equal => notLoading (equal ▸ mem_map_of_mem (f := Prod.fst) member)⟩
  · intro pending member
    rcases mem_append.mp member with old | added
    · obtain ⟨held, here, same⟩ := sound.storing pending old
      exact ⟨held, (kept _ _).mpr (.inr here), same⟩
    · rw [mem_singleton.mp added]
      exact ⟨block, (kept _ _).mpr (.inl ⟨rfl, rfl⟩), rfl⟩
  · rw [keys, nodup_append]
    refine ⟨sound.once, by simp, ?_⟩
    rintro other inStores _ (_ | ⟨_, ⟨⟩⟩) rfl
    exact notStoring inStores
  · intro other
    rw [sound.complete, keys, mem_append, mem_singleton, not_or]
    constructor
    · rintro ⟨notPending, held, here⟩
      refine ⟨⟨notPending, ?_⟩, held, (kept _ _).mpr (.inr here)⟩
      rintro rfl
      rw [new] at here
      cases here
    · rintro ⟨⟨notPending, differs⟩, held, here⟩
      rcases (kept other held).mp here with ⟨same, -⟩ | here
      · exact absurd same differs
      · exact ⟨notPending, held, here⟩

/-- Storing many is storing one after the other. -/
theorem storeAll_cons (blockHash : Hash) (rest : List Hash) (store : Store Hash) :
    storeAll (blockHash :: rest) store = store.backend.allocateOne.bind fun first =>
      (storeAll rest ⟨Function.update store.blocks blockHash (some first.2), first.1⟩).map fun stored =>
        (stored.1, first.2.blockId :: stored.2) := by
  rw [storeAll, length_cons, CPUBackend.allocateBlocks_succ]
  cases store.backend.allocateOne with
  | none => rfl
  | some first =>
    rw [Option.bind_some, Option.bind_some, storeAll, Option.map_map, Option.map_map]
    rfl

theorem storeAll_sound (store : Store Hash) (stores : List (Hash × Nat))
    (sound : Sound numBlocks loads stores completed store) (nodup : hashes.Nodup)
    (new : ∀ blockHash ∈ hashes, store.blocks blockHash = none)
    (room : hashes.length ≤ store.backend.getNumFreeBlocks) :
    ∃ next blockIds, storeAll hashes store = some (next, blockIds) ∧
      Sound numBlocks loads (stores ++ hashes.zip blockIds) completed next := by
  induction hashes generalizing store stores with
  | nil => exact ⟨store, [], by simp [storeAll, putAll], by simpa using sound⟩
  | cons blockHash rest ih =>
    rw [nodup_cons] at nodup
    rw [length_cons] at room
    obtain ⟨backend, block, allocated⟩ := allocateOne_some store.backend
      (by rw [sound.size]; exact sound.bounded) (by omega)
    obtain ⟨sound', fewer⟩ := sound.storeOne blockHash (new blockHash mem_cons_self) backend block allocated
    obtain ⟨next, blockIds, stored, sound''⟩ := ih _ _ sound' nodup.2
      (fun other member => by
        have differs : other ≠ blockHash := fun same => nodup.1 (same ▸ member)
        change update store.blocks blockHash (some block) other = none
        rw [update_apply, if_neg differs]
        exact new other (mem_cons_of_mem blockHash member))
      (by change rest.length ≤ backend.getNumFreeBlocks; omega)
    refine ⟨next, block.blockId :: blockIds, ?_, ?_⟩
    · rw [storeAll_cons, allocated, Option.bind_some, stored]
      rfl
    · rw [append_assoc] at sound''
      exact sound''

end Steps
end Store
end VllmDcu

import VllmDcu.OffloadStore
import Mathlib.Data.Rat.Floor

/-! The LRU and the ARC offloading manager over the CPU backend. A status object is
reached through the ordered dictionary that holds it; a float is a rational number,
rounded after each operation. -/
namespace VllmDcu

structure PrepareStoreOutput (Hash : Type) where
  blockHashesToStore : List Hash
  storeSpec : List Nat
  blockHashesEvicted : List Hash
  deriving DecidableEq, Repr

structure OffloadingEvent (Hash : Type) where
  blockHashes : List Hash
  removed : Bool
  deriving DecidableEq, Repr

namespace Dict
variable {Key Value : Type} [DecidableEq Key]

/-- `move_to_end` of a key that is there. -/
def moveToEnd (d : Dict Key Value) (key : Key) : Dict Key Value :=
  match d.get? key with
  | some value => (d.erase key).set key value
  | none => d

omit [DecidableEq Key] in
/-- `popitem(last=False)`, `count` times. -/
def dropOldest (count : Nat) (d : Dict Key Value) : Dict Key Value :=
  ⟨d.entries.drop count, ((List.drop_sublist count d.entries).map Prod.fst).nodup d.unique⟩

end Dict

/-- An event with these hashes, if there are any and events are kept. -/
def pushEvent {Hash : Type} (events : Option (List (OffloadingEvent Hash))) (blockHashes : List Hash)
    (removed : Bool) : Option (List (OffloadingEvent Hash)) :=
  if blockHashes.isEmpty then events else events.map (· ++ [⟨blockHashes, removed⟩])

/-- The loop of `complete_store`; it collects the hashes that were not ready. -/
def completeEach {Hash State : Type} (one : State → Hash → Option (State × Bool)) :
    List Hash → State → Option (State × List Hash)
  | [], state => some (state, [])
  | blockHash :: rest, state => do
      let done ← one state blockHash
      let others ← completeEach one rest done.1
      some (others.1, if done.2 then blockHash :: others.2 else others.2)

variable {Hash : Type} [DecidableEq Hash]

structure LRUOffloadingManager (Hash : Type) where
  backend : CPUBackend
  blocks : Dict Hash BlockStatus
  events : Option (List (OffloadingEvent Hash))

namespace LRUOffloadingManager

def init (numBlocks : Nat) (enableEvents : Bool) : LRUOffloadingManager Hash :=
  ⟨.init numBlocks, .empty, if enableEvents then some [] else none⟩

def access : Access Hash (LRUOffloadingManager Hash) where
  get self blockHash := self.blocks.get? blockHash
  put self blockHash block := { self with blocks := self.blocks.set blockHash block }

def lookup (self : LRUOffloadingManager Hash) (blockHashes : List Hash) : Nat :=
  access.hitCount self blockHashes

def prepareLoad (self : LRUOffloadingManager Hash) (blockHashes : List Hash) :
    Option (LRUOffloadingManager Hash × List Nat) :=
  access.loadAll blockHashes self

def touchOne (self : LRUOffloadingManager Hash) (blockHash : Hash) : LRUOffloadingManager Hash :=
  { self with blocks := self.blocks.moveToEnd blockHash }

def touch (self : LRUOffloadingManager Hash) (blockHashes : List Hash) : LRUOffloadingManager Hash :=
  blockHashes.reverse.foldl touchOne self

def completeLoad (self : LRUOffloadingManager Hash) (blockHashes : List Hash) :
    Option (LRUOffloadingManager Hash) :=
  access.unloadAll blockHashes self

/-- The oldest idle blocks that are not protected; none when there are too few. -/
def selectEvictions (isProtected : List Hash) : Nat → List (Hash × BlockStatus) → Option (List Hash)
  | 0, _ => some []
  | _ + 1, [] => none
  | count + 1, (blockHash, block) :: rest =>
    if block.refCnt = 0 ∧ blockHash ∉ isProtected then
      (selectEvictions isProtected count rest).map (blockHash :: ·)
    else selectEvictions isProtected (count + 1) rest

def evictAll : List Hash → LRUOffloadingManager Hash → Option (LRUOffloadingManager Hash)
  | [], self => some self
  | blockHash :: rest, self =>
    match self.blocks.get? blockHash with
    | some block => evictAll rest
        { self with backend := self.backend.free block, blocks := self.blocks.erase blockHash }
    | none => none

def insertAll (self : LRUOffloadingManager Hash) (stored : List (Hash × BlockStatus)) :
    LRUOffloadingManager Hash :=
  stored.foldl (fun self entry => access.put self entry.1 entry.2) self

def storeNew (self : LRUOffloadingManager Hash) (toStore toEvict : List Hash) :
    Option (LRUOffloadingManager Hash × Option (PrepareStoreOutput Hash)) :=
  (self.backend.allocateBlocks toStore.length).map fun allocated =>
    (insertAll { self with backend := allocated.1 } (toStore.zip allocated.2),
      some ⟨toStore, allocated.2.map BlockStatus.blockId, toEvict⟩)

def prepareStore (self : LRUOffloadingManager Hash) (blockHashes : List Hash) :
    Option (LRUOffloadingManager Hash × Option (PrepareStoreOutput Hash)) :=
  let toStore := blockHashes.filter fun blockHash => !self.blocks.contains blockHash
  match selectEvictions blockHashes (toStore.length - self.backend.getNumFreeBlocks)
      self.blocks.entries with
  | none => some (self, none)
  | some toEvict =>
    match evictAll toEvict self with
    | none => none
    | some evicted =>
      storeNew { evicted with events := pushEvent evicted.events toEvict true } toStore toEvict

/-- One hash of `complete_store`, and whether it was stored. -/
def completeOne (success : Bool) (self : LRUOffloadingManager Hash) (blockHash : Hash) :
    Option (LRUOffloadingManager Hash × Bool) :=
  match self.blocks.get? blockHash with
  | none => none
  | some block =>
    if block.isReady then some (self, false)
    else if success then some (access.put self blockHash { block with refCnt := 0 }, true)
    else some ({ self with
      backend := self.backend.free block
      blocks := self.blocks.erase blockHash }, false)

def completeStore (self : LRUOffloadingManager Hash) (blockHashes : List Hash) (success : Bool) :
    Option (LRUOffloadingManager Hash) :=
  (completeEach (completeOne success) blockHashes self).map fun done =>
    { done.1 with events := pushEvent done.1.events done.2 false }

end LRUOffloadingManager

/-- `t1` and `t2` hold the blocks, `b1` and `b2` the hashes that were evicted from them. -/
structure ARCOffloadingManager (Hash : Type) where
  backend : CPUBackend
  targetT1Size : ℚ
  t1 : Dict Hash BlockStatus
  t2 : Dict Hash BlockStatus
  b1 : Dict Hash Unit
  b2 : Dict Hash Unit
  events : Option (List (OffloadingEvent Hash))
  cacheCapacity : Nat

namespace ARCOffloadingManager

def init (numBlocks : Nat) (enableEvents : Bool) : ARCOffloadingManager Hash where
  backend := .init numBlocks
  targetT1Size := 0
  t1 := .empty
  t2 := .empty
  b1 := .empty
  b2 := .empty
  events := if enableEvents then some [] else none
  cacheCapacity := (CPUBackend.init numBlocks).getNumFreeBlocks

def access : Access Hash (ARCOffloadingManager Hash) where
  get self blockHash := (self.t1.get? blockHash).or (self.t2.get? blockHash)
  put self blockHash block :=
    if self.t1.contains blockHash then { self with t1 := self.t1.set blockHash block }
    else { self with t2 := self.t2.set blockHash block }

def lookup (self : ARCOffloadingManager Hash) (blockHashes : List Hash) : Nat :=
  access.hitCount self blockHashes

def prepareLoad (self : ARCOffloadingManager Hash) (blockHashes : List Hash) :
    Option (ARCOffloadingManager Hash × List Nat) :=
  access.loadAll blockHashes self

/-- `max(1, len(other) / len(own))` -/
def delta (round : ℚ → ℚ) (own other : Dict Hash Unit) : ℚ :=
  max 1 (round ((other.entries.length : ℚ) / own.entries.length))

def touchOne (round : ℚ → ℚ) (self : ARCOffloadingManager Hash) (blockHash : Hash) :
    ARCOffloadingManager Hash :=
  match self.t1.get? blockHash with
  | some block =>
    if block.isReady then
      { self with t1 := self.t1.erase blockHash, t2 := self.t2.set blockHash block }
    else { self with t1 := (self.t1.erase blockHash).set blockHash block }
  | none =>
    if self.t2.contains blockHash then { self with t2 := self.t2.moveToEnd blockHash }
    else if self.b1.contains blockHash then
      { self with
        targetT1Size := min (round (self.targetT1Size + delta round self.b1 self.b2)) self.cacheCapacity
        b1 := self.b1.moveToEnd blockHash }
    else if self.b2.contains blockHash then
      { self with
        targetT1Size := max (round (self.targetT1Size - delta round self.b2 self.b1)) 0
        b2 := self.b2.moveToEnd blockHash }
    else self

def touch (round : ℚ → ℚ) (self : ARCOffloadingManager Hash) (blockHashes : List Hash) :
    ARCOffloadingManager Hash :=
  blockHashes.reverse.foldl (touchOne round) self

def completeLoad (self : ARCOffloadingManager Hash) (blockHashes : List Hash) :
    Option (ARCOffloadingManager Hash) :=
  access.unloadAll blockHashes self

def oldestIdle (isProtected : List Hash) (blocks : Dict Hash BlockStatus) : Option (Hash × BlockStatus) :=
  blocks.entries.find? fun entry => decide (entry.2.refCnt = 0 ∧ entry.1 ∉ isProtected)

/-- One turn of the eviction loop: from T1 if it has its target size, else from T2. -/
def evictOne (isProtected : List Hash) (self : ARCOffloadingManager Hash) :
    Option (ARCOffloadingManager Hash × Hash) :=
  match (if ⌊self.targetT1Size⌋ ≤ (self.t1.entries.length : Int) then oldestIdle isProtected self.t1
      else none) with
  | some (blockHash, block) =>
    some ({ self with
      t1 := self.t1.erase blockHash
      b1 := self.b1.set blockHash ()
      backend := self.backend.free block }, blockHash)
  | none =>
    match oldestIdle isProtected self.t2 with
    | some (blockHash, block) =>
      some ({ self with
        t2 := self.t2.erase blockHash
        b2 := self.b2.set blockHash ()
        backend := self.backend.free block }, blockHash)
    | none => none

/-- The eviction loop: the state is changed also when it cannot evict enough. -/
def evictLoop (isProtected : List Hash) :
    Nat → ARCOffloadingManager Hash → ARCOffloadingManager Hash × Option (List Hash)
  | 0, self => (self, some [])
  | count + 1, self =>
    match evictOne isProtected self with
    | none => (self, none)
    | some (next, blockHash) =>
      let last := evictLoop isProtected count next
      (last.1, last.2.map (blockHash :: ·))

def trimGhosts (self : ARCOffloadingManager Hash) : ARCOffloadingManager Hash :=
  { self with
    b1 := self.b1.dropOldest (self.b1.entries.length - self.cacheCapacity)
    b2 := self.b2.dropOldest (self.b2.entries.length - self.cacheCapacity) }

def insertAll (self : ARCOffloadingManager Hash) (stored : List (Hash × BlockStatus)) :
    ARCOffloadingManager Hash :=
  stored.foldl (fun self entry => { self with
    t1 := self.t1.set entry.1 entry.2
    b1 := self.b1.erase entry.1
    b2 := self.b2.erase entry.1 }) self

def storeNew (self : ARCOffloadingManager Hash) (toStore toEvict : List Hash) :
    Option (ARCOffloadingManager Hash × Option (PrepareStoreOutput Hash)) :=
  (self.backend.allocateBlocks toStore.length).map fun allocated =>
    (insertAll { self with backend := allocated.1 } (toStore.zip allocated.2),
      some ⟨toStore, allocated.2.map BlockStatus.blockId, toEvict⟩)

def prepareStore (self : ARCOffloadingManager Hash) (blockHashes : List Hash) :
    Option (ARCOffloadingManager Hash × Option (PrepareStoreOutput Hash)) :=
  let toStore := blockHashes.filter fun blockHash =>
    !self.t1.contains blockHash && !self.t2.contains blockHash
  if toStore.isEmpty then some (self, some ⟨[], [], []⟩)
  else
    match evictLoop blockHashes (toStore.length - self.backend.getNumFreeBlocks) self with
    | (evicted, none) => some (evicted, none)
    | (evicted, some toEvict) =>
      let trimmed := evicted.trimGhosts
      storeNew { trimmed with events := pushEvent trimmed.events toEvict true } toStore toEvict

/-- One hash of `complete_store`, and whether it was stored. -/
def completeOne (success : Bool) (self : ARCOffloadingManager Hash) (blockHash : Hash) :
    Option (ARCOffloadingManager Hash × Bool) :=
  if success then
    match access.get self blockHash with
    | some block =>
      if block.isReady then some (self, false)
      else some (access.put self blockHash { block with refCnt := 0 }, true)
    | none => some (self, false)
  else
    match self.t1.get? blockHash with
    | some block =>
      some ({ self with
        t1 := self.t1.erase blockHash
        backend := if block.isReady then self.backend else self.backend.free block }, false)
    | none =>
      match self.t2.get? blockHash with
      | some block =>
        some ({ self with
          t2 := self.t2.erase blockHash
          backend := if block.isReady then self.backend else self.backend.free block }, false)
      | none => some (self, false)

def completeStore (self : ARCOffloadingManager Hash) (blockHashes : List Hash) (success : Bool) :
    Option (ARCOffloadingManager Hash) :=
  (completeEach (completeOne success) blockHashes self).map fun done =>
    { done.1 with events := pushEvent done.1.events done.2 false }

end ARCOffloadingManager
end VllmDcu

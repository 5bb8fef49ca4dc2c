import VllmDcu.FreeBlockQueue
import VllmDcu.Requests

/-! The block pool: reference counts, the hash of every cached block, the map from
hash keys to cached blocks and the free queue. A key packs a block hash with its
group id; the hash of a larger block is the concatenation of the hashes it is
made of. Failed assertions and raised errors are `none`. -/
namespace VllmDcu.BlockPool
open Requests FreeBlockQueue

/-- `BlockHashWithGroupId`. -/
abbrev HashKey (Digest : Type) := List Digest × Nat

structure Block (Digest : Type) where
  refCnt : Int
  blockHash : Option (HashKey Digest)

/-- The union type of the map: one block, or several in insertion order. -/
inductive CachedBlocks where
  | single (block : BlockId)
  | several (blocks : List BlockId)

abbrev BlockHashToBlockMap (Digest : Type) := HashKey Digest → Option CachedBlocks

inductive KVCacheEvent (Digest : Type) where
  | blockStored (blockHashes : List (List Digest)) (parentBlockHash : Option (List Digest))
      (tokenIds : List Token) (blockSize : Nat) (loraId : Option Nat) (medium : String)
      (loraName : Option String) (extraKeys : Option (List (Option (List (ExtraKey Digest)))))
  | blockRemoved (blockHashes : List (List Digest)) (medium : String)
  | allBlocksCleared

def mediumGpu : String := "GPU"

/-- `BlockHashListWithBlockSize`, and the plain list at the same block size. -/
def hashesWithBlockSize {Digest : Type} (blockHashes : List Digest)
    (hashBlockSize targetBlockSize : Nat) : List (List Digest) :=
  let scaleFactor := targetBlockSize / hashBlockSize
  (List.range (blockHashes.length / scaleFactor)).map fun index =>
    (blockHashes.drop (index * scaleFactor)).take scaleFactor

structure Pool (Digest : Type) where
  numGpuBlocks : Nat
  enableCaching : Bool
  hashBlockSize : Nat
  blocks : BlockId → Block Digest
  freeBlockQueue : FreeQueue
  cachedBlockHashToBlock : BlockHashToBlockMap Digest
  nullBlock : BlockId
  enableKvCacheEvents : Bool
  kvEventQueue : List (KVCacheEvent Digest)

variable {Digest : Type} [DecidableEq Digest]

namespace BlockHashToBlockMap

omit [DecidableEq Digest] in
def getOneBlock (cache : BlockHashToBlockMap Digest) (key : HashKey Digest) : Option BlockId :=
  match cache key with
  | none => none
  | some (.single block) => some block
  | some (.several blocks) => blocks.head?

def insert (cache : BlockHashToBlockMap Digest) (key : HashKey Digest) (block : BlockId) :
    BlockHashToBlockMap Digest :=
  Function.update cache key <| some <|
    match cache key with
    | none => .single block
    | some (.single present) => if present = block then .several [block] else .several [present, block]
    | some (.several blocks) => .several (if block ∈ blocks then blocks else blocks ++ [block])

/-- The found block, and the map without it. -/
def pop (cache : BlockHashToBlockMap Digest) (key : HashKey Digest) (blockId : BlockId) :
    Option BlockId × BlockHashToBlockMap Digest :=
  match cache key with
  | none => (none, cache)
  | some (.single block) =>
    if block = blockId then (some block, Function.update cache key none) else (none, cache)
  | some (.several blocks) =>
    let rest := blocks.filter (· ≠ blockId)
    (if blockId ∈ blocks then some blockId else none,
      Function.update cache key (if rest = [] then none else some (.several rest)))

end BlockHashToBlockMap

namespace Pool

/-- `BlockPool.__init__`; the first block of the queue becomes the null block. -/
def init (numGpuBlocks : Nat) (enableCaching : Bool) (hashBlockSize : Nat)
    (enableKvCacheEvents : Bool) : Option (Pool Digest) :=
  (FreeQueue.init numGpuBlocks).popleft.map fun (nullBlock, queue) =>
    { numGpuBlocks := numGpuBlocks
      enableCaching := enableCaching
      hashBlockSize := hashBlockSize
      blocks := fun _ => ⟨0, none⟩
      freeBlockQueue := queue
      cachedBlockHashToBlock := fun _ => none
      nullBlock := nullBlock
      enableKvCacheEvents := enableKvCacheEvents
      kvEventQueue := [] }

def isNull (pool : Pool Digest) (block : BlockId) : Bool := decide (block = pool.nullBlock)

def getNumFreeBlocks (pool : Pool Digest) : Int := pool.freeBlockQueue.numFreeBlocks

def addRef (pool : Pool Digest) (block : BlockId) (amount : Int) : Pool Digest :=
  let counted := { pool.blocks block with refCnt := (pool.blocks block).refCnt + amount }
  { pool with blocks := Function.update pool.blocks block counted }

def setHash (pool : Pool Digest) (block : BlockId) (hash : Option (HashKey Digest)) : Pool Digest :=
  let hashed := { pool.blocks block with blockHash := hash }
  { pool with blocks := Function.update pool.blocks block hashed }

def addEvent (pool : Pool Digest) (event : KVCacheEvent Digest) : Pool Digest :=
  if pool.enableKvCacheEvents then { pool with kvEventQueue := pool.kvEventQueue ++ [event] }
  else pool

def getCachedBlock (pool : Pool Digest) (blockHash : List Digest) (kvCacheGroupIds : List Nat) :
    Option (List BlockId) :=
  kvCacheGroupIds.mapM fun groupId =>
    BlockHashToBlockMap.getOneBlock pool.cachedBlockHashToBlock (blockHash, groupId)

/-- The loop of `cache_full_blocks` over the new full blocks and their hashes. -/
def cacheLoop (groupId : Nat) : Pool Digest → List BlockId → List (List Digest) →
    Option (Pool Digest × List (List Digest))
  | pool, [], _ => some (pool, [])
  | pool, block :: rest, hashes =>
    if pool.isNull block then cacheLoop groupId pool rest hashes.tail
    else
      match (pool.blocks block).blockHash, hashes with
      | none, hash :: hashes =>
        let cached :=
          { pool.setHash block (some (hash, groupId)) with
            cachedBlockHashToBlock :=
              BlockHashToBlockMap.insert pool.cachedBlockHashToBlock (hash, groupId) block }
        (cacheLoop groupId cached rest hashes).map fun (pool, newHashes) =>
          (pool, hash :: newHashes)
      | _, _ => none

/-- The extra keys of the stored blocks, in one pass of the item cursor. -/
def extraKeysLoop (pool : Pool Digest) (request : Request Digest) (blockSize : Nat) :
    List (BlockId × Nat) → Int → List (Option (List (ExtraKey Digest)))
  | [], _ => []
  | (block, index) :: rest, currMmIdx =>
    if pool.isNull block then extraKeysLoop pool request blockSize rest currMmIdx
    else
      let extra := generateBlockHashExtraKeys request (index * blockSize)
        (index * blockSize + blockSize) currMmIdx
      extra.1 :: extraKeysLoop pool request blockSize rest extra.2

def blockStored (pool : Pool Digest) (request : Request Digest) (blocks : List BlockId)
    (newHashes hashes : List (List Digest)) (numCachedBlocks numFullBlocks blockSize : Nat) :
    Option (KVCacheEvent Digest) :=
  let extraKeys := pool.extraKeysLoop request blockSize
    ((blocks.zipIdx.take numFullBlocks).drop numCachedBlocks) 0
  if blocks.length < numFullBlocks then none
  else
    some <| .blockStored newHashes
      (if numCachedBlocks = 0 then none else hashes[numCachedBlocks - 1]?)
      ((request.allTokenIds.take (numFullBlocks * blockSize)).drop (numCachedBlocks * blockSize))
      blockSize (request.loraRequest.map (·.loraIntId)) mediumGpu
      (request.loraRequest.map (·.loraName)) (if extraKeys.isEmpty then none else some extraKeys)

def cacheFullBlocks (pool : Pool Digest) (request : Request Digest) (blocks : List BlockId)
    (numCachedBlocks numFullBlocks blockSize kvCacheGroupId : Nat) : Option (Pool Digest) :=
  if numCachedBlocks ≥ numFullBlocks then some pool
  else if request.blockHashes.length < numFullBlocks then none
  else if blockSize % pool.hashBlockSize ≠ 0 then none
  else
    let newFullBlocks := (blocks.take numFullBlocks).drop numCachedBlocks
    let hashes := hashesWithBlockSize request.blockHashes pool.hashBlockSize blockSize
    match cacheLoop kvCacheGroupId pool newFullBlocks (hashes.drop numCachedBlocks) with
    | none => none
    | some (cached, newHashes) =>
      if pool.enableKvCacheEvents then
        (pool.blockStored request blocks newHashes hashes numCachedBlocks numFullBlocks
          blockSize).map cached.addEvent
      else some cached

/-- `_maybe_evict_cached_block`: whether the block was evicted, and the pool. -/
def maybeEvictCachedBlock (pool : Pool Digest) (block : BlockId) : Bool × Pool Digest :=
  match (pool.blocks block).blockHash with
  | none => (false, pool)
  | some key =>
    match BlockHashToBlockMap.pop pool.cachedBlockHashToBlock key block with
    | (none, cache) => (false, { pool with cachedBlockHashToBlock := cache })
    | (some _, cache) =>
      (true, { pool.setHash block none with cachedBlockHashToBlock := cache }.addEvent
        (.blockRemoved [key.1] mediumGpu))

/-- The loop of `get_new_blocks` over the popped blocks. -/
def takeLoop : Pool Digest → List BlockId → Option (Pool Digest)
  | pool, [] => some pool
  | pool, block :: rest =>
    let pool := if pool.enableCaching then (pool.maybeEvictCachedBlock block).2 else pool
    if (pool.blocks block).refCnt = 0 then takeLoop (pool.addRef block 1) rest else none

def getNewBlocks (pool : Pool Digest) (numBlocks : Int) : Option (List BlockId × Pool Digest) :=
  if numBlocks > pool.getNumFreeBlocks then none
  else
    match pool.freeBlockQueue.popleftN numBlocks with
    | none => none
    | some (ret, queue) =>
      ({ pool with freeBlockQueue := queue }.takeLoop ret).map fun pool => (ret, pool)

def touch : Pool Digest → List BlockId → Option (Pool Digest)
  | pool, [] => some pool
  | pool, block :: rest =>
    if (pool.blocks block).refCnt = 0 ∧ pool.isNull block = false then
      match pool.freeBlockQueue.remove block with
      | none => none
      | some queue => touch ({ pool with freeBlockQueue := queue }.addRef block 1) rest
    else touch (pool.addRef block 1) rest

def freeBlocks (pool : Pool Digest) (orderedBlocks : List BlockId) : Option (Pool Digest) :=
  let pool := orderedBlocks.foldl (fun pool block => pool.addRef block (-1)) pool
  (pool.freeBlockQueue.appendN
    (orderedBlocks.filter fun block =>
      decide ((pool.blocks block).refCnt = 0) && !pool.isNull block)).map fun queue =>
        { pool with freeBlockQueue := queue }

def evictBlocks : Pool Digest → List BlockId → Option (Pool Digest)
  | pool, [] => some pool
  | pool, blockId :: rest =>
    if blockId < pool.numGpuBlocks then evictBlocks (pool.maybeEvictCachedBlock blockId).2 rest
    else none

/-- Whether the cache was reset: only with no block in use but the null block. -/
def resetPrefixCache (pool : Pool Digest) : Bool × Pool Digest :=
  if pool.numGpuBlocks - pool.getNumFreeBlocks ≠ 1 then (false, pool)
  else
    (true,
      { pool with
        cachedBlockHashToBlock := fun _ => none
        blocks := fun block => { pool.blocks block with blockHash := none } }.addEvent
          .allBlocksCleared)

end Pool
end VllmDcu.BlockPool

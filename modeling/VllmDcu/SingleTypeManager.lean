import VllmDcu.BlockPool
import VllmDcu.Dict
import VllmDcu.KVCacheInterface

/-! The manager of one KV cache group: the block table of every request in the
group and how many of its blocks are cached. The block pool is shared between
managers and passed through. One definition serves all manager classes; where a
class overrides a method, the branch on the spec says so. Failed assertions and
raised errors are `none`. -/
namespace VllmDcu.SingleTypeManager
open Requests FreeBlockQueue BlockPool KVCacheInterface MathUtils

structure Manager (Digest : Type) where
  kvCacheSpec : KVCacheSpec
  blockSize : Nat
  enableCaching : Bool
  kvCacheGroupId : Nat
  newBlockIds : List BlockId
  reqToBlocks : Dict ReqId (List BlockId)
  numCachedBlock : Dict ReqId Nat
  cachedBlocksThisStep : List (HashKey Digest)
  lastStateBlockIdx : Dict ReqId Int
  allocatedBlockReqs : List ReqId
  sinkBlocks : List BlockId

variable {Digest : Type}

namespace Manager

/-- `__init__`; a sink manager takes its blocks out of the queue for good. -/
def init (pool : Pool Digest) (kvCacheSpec : KVCacheSpec) (enableCaching : Bool)
    (kvCacheGroupId dcpWorldSize pcpWorldSize : Nat) : Option (Pool Digest × Manager Digest) :=
  let manager : Manager Digest :=
    { kvCacheSpec := kvCacheSpec
      blockSize := kvCacheSpec.blockSize * (dcpWorldSize * pcpWorldSize)
      enableCaching := enableCaching
      kvCacheGroupId := kvCacheGroupId
      newBlockIds := []
      reqToBlocks := Dict.empty
      numCachedBlock := Dict.empty
      cachedBlocksThisStep := []
      lastStateBlockIdx := Dict.empty
      allocatedBlockReqs := []
      sinkBlocks := [] }
  match kvCacheSpec with
  | .sinkFullAttention spec =>
    match spec.sinkLen with
    | none => none
    | some sinkLen =>
      if sinkLen = 0 ∨ sinkLen % manager.blockSize ≠ 0 then none
      else
        (pool.freeBlockQueue.popleftN (sinkLen / manager.blockSize : Nat)).map
          fun (sinkBlocks, queue) =>
            ({ pool with freeBlockQueue := queue }, { manager with sinkBlocks := sinkBlocks })
  | _ => some (pool, manager)

/-- `self.req_to_blocks.get(request_id) or []`. -/
def blocksOf (manager : Manager Digest) (requestId : ReqId) : List BlockId :=
  (manager.reqToBlocks.get? requestId).getD []

def setBlocks (manager : Manager Digest) (requestId : ReqId) (blocks : List BlockId) :
    Manager Digest :=
  { manager with reqToBlocks := manager.reqToBlocks.set requestId blocks }

/-- Only plain full attention reports new blocks for zeroing. -/
def noteNewBlocks (manager : Manager Digest) (blocks : List BlockId) : Manager Digest :=
  match manager.kvCacheSpec with
  | .fullAttention _ => { manager with newBlockIds := manager.newBlockIds ++ blocks }
  | _ => manager

def takeNewBlockIds (manager : Manager Digest) : List BlockId × Manager Digest :=
  (manager.newBlockIds, { manager with newBlockIds := [] })

def getNumSkippedTokens (manager : Manager Digest) (numComputedTokens : Int) : Int :=
  match manager.kvCacheSpec with
  | .slidingWindow spec => max 0 (numComputedTokens - spec.slidingWindow + 1)
  | .chunkedLocalAttention spec =>
    numComputedTokens / spec.attentionChunkSize * spec.attentionChunkSize
  | .mamba _ => numComputedTokens - 1
  | _ => 0

variable [DecidableEq Digest]

def getNumEvictableBlocks (pool : Pool Digest) (blocks : List BlockId) : Nat :=
  blocks.countP fun block => decide ((pool.blocks block).refCnt = 0) && !pool.isNull block

/-- `SingleTypeKVCacheManager.get_num_blocks_to_allocate`. -/
def baseNumBlocksToAllocate (manager : Manager Digest) (pool : Pool Digest) (requestId : ReqId)
    (numTokens : Int) (newComputedBlocks : List BlockId) (totalComputedTokens : Int) :
    Option Int :=
  let numRequiredBlocks := cdiv numTokens manager.blockSize
  let numReqBlocks := (manager.blocksOf requestId).length
  if manager.numCachedBlock.contains requestId then
    if newComputedBlocks.isEmpty then some (max (numRequiredBlocks - numReqBlocks) 0) else none
  else
    let numSkippedTokens := manager.getNumSkippedTokens totalComputedTokens
    let numLocalComputedBlocks := newComputedBlocks.length + numReqBlocks
    let numSkippedBlocks := numSkippedTokens / manager.blockSize
    let numNewBlocks := max (numRequiredBlocks - max numSkippedBlocks numLocalComputedBlocks) 0
    let numSkippedNewComputedBlocks := max 0 (numSkippedBlocks - numReqBlocks)
    let numEvictableBlocks :=
      getNumEvictableBlocks pool (newComputedBlocks.drop numSkippedNewComputedBlocks.toNat)
    some (numNewBlocks + numEvictableBlocks)

def getNumBlocksToAllocate (manager : Manager Digest) (pool : Pool Digest) (requestId : ReqId)
    (numTokens : Int) (newComputedBlocks : List BlockId)
    (totalComputedTokens numTokensMainModel : Int) : Option Int :=
  match manager.kvCacheSpec with
  | .mamba spec =>
    let generatedThisStep :=
      match newComputedBlocks.getLast? with
      | none => false
      | some last =>
        match (pool.blocks last).blockHash with
        | none => false
        | some key => decide (key ∈ manager.cachedBlocksThisStep)
    if generatedThisStep then some (pool.numGpuBlocks + 1)
    else if spec.mambaCacheMode ≠ .align then
      manager.baseNumBlocksToAllocate pool requestId
        (numTokens + spec.blockSize * spec.numSpeculativeBlocks) newComputedBlocks
        totalComputedTokens
    else
      let numRequiredBlocks :=
        cdiv numTokensMainModel manager.blockSize + spec.numSpeculativeBlocks
      let numNewBlocks := numRequiredBlocks - newComputedBlocks.length -
        (manager.blocksOf requestId).length
      let numNewBlocks : Int :=
        if numNewBlocks > 0 then
          if requestId ∈ manager.allocatedBlockReqs then 1 else 1 + spec.numSpeculativeBlocks
        else numNewBlocks
      some (numNewBlocks + getNumEvictableBlocks pool newComputedBlocks)
  | _ =>
    manager.baseNumBlocksToAllocate pool requestId numTokens newComputedBlocks totalComputedTokens

/-- `SingleTypeKVCacheManager.allocate_new_computed_blocks` for a new request. -/
def addComputedBlocks (manager : Manager Digest) (pool : Pool Digest) (requestId : ReqId)
    (newComputedBlocks : List BlockId) (numLocalComputedTokens numExternalComputedTokens : Int) :
    Option (Pool Digest × Manager Digest) :=
  let numTotalComputedTokens := numLocalComputedTokens + numExternalComputedTokens
  let numSkippedTokens := manager.getNumSkippedTokens numTotalComputedTokens
  let numSkippedBlocks := numSkippedTokens / manager.blockSize
  let skipped := decide (numSkippedBlocks > 0)
  let newComputedBlocks :=
    if skipped then newComputedBlocks.drop numSkippedBlocks.toNat else newComputedBlocks
  let numExternalComputedTokens :=
    if skipped then min (numTotalComputedTokens - numSkippedTokens) numExternalComputedTokens
    else numExternalComputedTokens
  let touched :=
    if manager.enableCaching then pool.touch newComputedBlocks
    else if newComputedBlocks.isEmpty then some pool else none
  match touched with
  | none => none
  | some pool =>
    let reqBlocks := List.replicate numSkippedBlocks.toNat pool.nullBlock ++ newComputedBlocks
    let manager :=
      { manager.setBlocks requestId reqBlocks with
        numCachedBlock := manager.numCachedBlock.set requestId reqBlocks.length }
    if numExternalComputedTokens > 0 then
      (pool.getNewBlocks
        (cdiv numTotalComputedTokens manager.blockSize - reqBlocks.length)).map
          fun (allocatedBlocks, pool) =>
            (pool, (manager.setBlocks requestId (reqBlocks ++ allocatedBlocks)).noteNewBlocks
              allocatedBlocks)
    else some (pool, manager)

def allocateNewComputedBlocks (manager : Manager Digest) (pool : Pool Digest) (requestId : ReqId)
    (newComputedBlocks : List BlockId) (numLocalComputedTokens numExternalComputedTokens : Int) :
    Option (Pool Digest × Manager Digest) :=
  match manager.kvCacheSpec with
  | .crossAttention _ => if newComputedBlocks.isEmpty then some (pool, manager) else none
  | _ =>
    if manager.numCachedBlock.contains requestId then
      if newComputedBlocks.isEmpty then some (pool, manager) else none
    else if (manager.blocksOf requestId).isEmpty then
      manager.addComputedBlocks pool requestId newComputedBlocks numLocalComputedTokens
        numExternalComputedTokens
    else none

/-- `SingleTypeKVCacheManager.allocate_new_blocks`. -/
def baseAllocateNewBlocks (manager : Manager Digest) (pool : Pool Digest) (requestId : ReqId)
    (numTokens : Int) : Option (List BlockId × Pool Digest × Manager Digest) :=
  let reqBlocks := manager.blocksOf requestId
  let numNewBlocks := cdiv numTokens manager.blockSize - reqBlocks.length
  if numNewBlocks ≤ 0 then some ([], pool, manager.setBlocks requestId reqBlocks)
  else
    (pool.getNewBlocks numNewBlocks).map fun (newBlocks, pool) =>
      (newBlocks, pool,
        (manager.setBlocks requestId (reqBlocks ++ newBlocks)).noteNewBlocks newBlocks)

/-- The speculative blocks of the previous step move behind the skipped ones. -/
def reuseLoop (nullBlock : BlockId) (numSkippedBlocks : Int) : List Int → List BlockId → List BlockId
  | [], reqBlocks => reqBlocks
  | blockIdx :: rest, reqBlocks =>
    if blockIdx < numSkippedBlocks then
      match reqBlocks[blockIdx.toNat]? with
      | none => reqBlocks
      | some block =>
        reuseLoop nullBlock numSkippedBlocks rest
          ((reqBlocks ++ [block]).set blockIdx.toNat nullBlock)
    else reqBlocks

/-- `MambaManager.allocate_new_blocks` in the "align" cache mode. -/
def alignAllocateNewBlocks (manager : Manager Digest) (spec : MambaSpec) (pool : Pool Digest)
    (requestId : ReqId) (numTokens : Int) : Option (List BlockId × Pool Digest × Manager Digest) :=
  let reqBlocks := manager.blocksOf requestId
  let numRequiredBlocks := cdiv numTokens manager.blockSize + spec.numSpeculativeBlocks
  if numRequiredBlocks = reqBlocks.length then
    some ([], pool, manager.setBlocks requestId reqBlocks)
  else if numRequiredBlocks < reqBlocks.length then none
  else
    let prevBlockLen : Int := reqBlocks.length
    let blocksAllocated := decide (requestId ∈ manager.allocatedBlockReqs)
    let lastStateBlockIdx :=
      if blocksAllocated then
        manager.lastStateBlockIdx.set requestId (prevBlockLen - 1 - spec.numSpeculativeBlocks)
      else if prevBlockLen > 0 then manager.lastStateBlockIdx.set requestId (prevBlockLen - 1)
      else manager.lastStateBlockIdx
    let numSkippedBlocks := numRequiredBlocks - spec.numSpeculativeBlocks - 1
    let padded := reqBlocks ++
      List.replicate (numSkippedBlocks - prevBlockLen).toNat pool.nullBlock
    let reused :=
      if blocksAllocated then
        reuseLoop pool.nullBlock numSkippedBlocks
          ((List.range spec.numSpeculativeBlocks).map fun offset =>
            prevBlockLen - spec.numSpeculativeBlocks + offset) padded
      else padded
    let numNewBlocks := numRequiredBlocks - reused.length
    if numNewBlocks > (if blocksAllocated then 1 else spec.numSpeculativeBlocks + 1 : Int) then none
    else
      (pool.getNewBlocks numNewBlocks).map fun (newBlocks, pool) =>
        let reqBlocks := reused ++ newBlocks
        (reqBlocks.drop prevBlockLen.toNat, pool,
          { manager.setBlocks requestId reqBlocks with
            lastStateBlockIdx := lastStateBlockIdx
            allocatedBlockReqs := requestId :: manager.allocatedBlockReqs.filter (· ≠ requestId) })

def allocateNewBlocks (manager : Manager Digest) (pool : Pool Digest) (requestId : ReqId)
    (numTokens numTokensMainModel : Int) : Option (List BlockId × Pool Digest × Manager Digest) :=
  match manager.kvCacheSpec with
  | .mamba spec =>
    if spec.mambaCacheMode ≠ .align then
      manager.baseAllocateNewBlocks pool requestId
        (numTokens + manager.blockSize * spec.numSpeculativeBlocks)
    else manager.alignAllocateNewBlocks spec pool requestId numTokensMainModel
  | _ => manager.baseAllocateNewBlocks pool requestId numTokens

/-- `SingleTypeKVCacheManager.cache_blocks`. -/
def baseCacheBlocks (manager : Manager Digest) (pool : Pool Digest) (request : Request Digest)
    (numTokens : Int) : Option (Pool Digest × Manager Digest) :=
  let numCachedBlocks := (manager.numCachedBlock.get? request.requestId).getD 0
  let numFullBlocks := numTokens / manager.blockSize
  if numCachedBlocks ≥ numFullBlocks then some (pool, manager)
  else
    (pool.cacheFullBlocks request (manager.blocksOf request.requestId) numCachedBlocks
      numFullBlocks.toNat manager.blockSize manager.kvCacheGroupId).map fun pool =>
        (pool,
          { manager.setBlocks request.requestId (manager.blocksOf request.requestId) with
            numCachedBlock := manager.numCachedBlock.set request.requestId numFullBlocks.toNat })

def cacheBlocks (manager : Manager Digest) (pool : Pool Digest) (request : Request Digest)
    (numTokens : Int) : Option (Pool Digest × Manager Digest) :=
  match manager.kvCacheSpec with
  | .crossAttention _ => none
  | .mamba _ =>
    let before := (manager.numCachedBlock.get? request.requestId).getD 0
    (manager.baseCacheBlocks pool request numTokens).map fun (pool, manager) =>
      let after := (manager.numCachedBlock.get? request.requestId).getD 0
      let cached := ((manager.blocksOf request.requestId).take after).drop before
      let keys := cached.filterMap fun block =>
        if pool.isNull block then none else (pool.blocks block).blockHash
      (pool, { manager with cachedBlocksThisStep := manager.cachedBlocksThisStep ++ keys })
  | _ => manager.baseCacheBlocks pool request numTokens

def free (manager : Manager Digest) (pool : Pool Digest) (requestId : ReqId) :
    Option (Pool Digest × Manager Digest) :=
  (pool.freeBlocks (manager.blocksOf requestId).reverse).map fun pool =>
    (pool,
      { manager with
        reqToBlocks := manager.reqToBlocks.erase requestId
        numCachedBlock := manager.numCachedBlock.erase requestId
        lastStateBlockIdx := manager.lastStateBlockIdx.erase requestId
        allocatedBlockReqs := manager.allocatedBlockReqs.filter (· ≠ requestId) })

/-- The loop of `remove_skipped_blocks` from the last skipped block down to the
first null block: the removed blocks and the table. -/
def skipLoop (nullBlock : BlockId) : Nat → List BlockId → List BlockId × List BlockId
  | 0, blocks => ([], blocks)
  | i + 1, blocks =>
    match blocks[i]? with
    | none => ([], blocks)
    | some block =>
      if block = nullBlock then ([], blocks)
      else
        let rest := skipLoop nullBlock i (blocks.set i nullBlock)
        (block :: rest.1, rest.2)

/-- `SingleTypeKVCacheManager.remove_skipped_blocks`. -/
def baseRemoveSkippedBlocks (manager : Manager Digest) (pool : Pool Digest) (requestId : ReqId)
    (totalComputedTokens : Int) : Option (Pool Digest × Manager Digest) :=
  let numSkippedTokens := manager.getNumSkippedTokens totalComputedTokens
  if numSkippedTokens ≤ 0 then some (pool, manager)
  else
    let blocks := manager.blocksOf requestId
    let numSkippedBlocks := min (numSkippedTokens / manager.blockSize) blocks.length
    let removed := skipLoop pool.nullBlock numSkippedBlocks.toNat blocks
    (pool.freeBlocks removed.1).map fun pool => (pool, manager.setBlocks requestId removed.2)

/-- The state block of two steps ago is freed in the "align" cache mode. -/
def freeLastStateBlock (manager : Manager Digest) (pool : Pool Digest) (requestId : ReqId)
    (numComputedTokens : Int) : Option (Pool Digest × Manager Digest) :=
  match manager.lastStateBlockIdx.get? requestId with
  | none => some (pool, manager)
  | some lastStateBlockIdx =>
    if lastStateBlockIdx < cdiv numComputedTokens manager.blockSize - 1 then
      let blocks := manager.blocksOf requestId
      match blocks[lastStateBlockIdx.toNat]? with
      | none => none
      | some block =>
        if block = pool.nullBlock then some (pool, manager)
        else
          (pool.freeBlocks [block]).map fun pool =>
            (pool, manager.setBlocks requestId
              (blocks.set lastStateBlockIdx.toNat pool.nullBlock))
    else some (pool, manager)

def removeSkippedBlocks (manager : Manager Digest) (pool : Pool Digest) (requestId : ReqId)
    (totalComputedTokens : Int) : Option (Pool Digest × Manager Digest) :=
  match manager.kvCacheSpec with
  | .mamba spec =>
    let numComputedTokens := max 0 (totalComputedTokens - spec.numSpeculativeBlocks)
    match manager.baseRemoveSkippedBlocks pool requestId numComputedTokens with
    | none => none
    | some (pool, manager) =>
      if spec.mambaCacheMode = .align then
        manager.freeLastStateBlock pool requestId numComputedTokens
      else some (pool, manager)
  | _ => manager.baseRemoveSkippedBlocks pool requestId totalComputedTokens

omit [DecidableEq Digest] in
/-- The loop of `get_num_common_prefix_blocks` over the blocks of a request. -/
def commonLoop (pool : Pool Digest) (numRequests : Nat) : List BlockId → Nat
  | [] => 0
  | block :: rest =>
    if (pool.blocks block).refCnt = numRequests then commonLoop pool numRequests rest + 1 else 0

omit [DecidableEq Digest] in
/-- The count, and the tables; looking up a request without a table gives it an
empty one. Only full attention counts. -/
def getNumCommonPrefixBlocks (manager : Manager Digest) (pool : Pool Digest) (requestId : ReqId) :
    Nat × Manager Digest :=
  match manager.kvCacheSpec with
  | .fullAttention _ | .mlaAttention _ | .sinkFullAttention _ =>
    let looked := manager.setBlocks requestId (manager.blocksOf requestId)
    (commonLoop pool looked.reqToBlocks.entries.length (manager.blocksOf requestId), looked)
  | _ => (0, manager)

omit [DecidableEq Digest] in
def newStepStarts (manager : Manager Digest) : Manager Digest :=
  { manager with cachedBlocksThisStep := [] }

end Manager
end VllmDcu.SingleTypeManager

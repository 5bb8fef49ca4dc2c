import VllmDcu.CacheHit

/-! The coordinator of the managers of all KV cache groups, and the interface
the scheduler calls. The pool that the managers share is a field of the
coordinator; a manager's group id is its index. Failed assertions and raised
errors are `none`. -/
namespace VllmDcu.CacheManager
open Requests FreeBlockQueue BlockPool KVCacheInterface MathUtils SingleTypeManager CacheHit

/-- The blocks of each KV cache group. -/
abbrev KVCacheBlocks := List (List BlockId)

inductive CoordinatorKind where
  | noPrefixCache
  | unitary
  | hybrid
  deriving DecidableEq

structure Coordinator (Digest : Type) where
  kind : CoordinatorKind
  useEagle : Bool
  dcpWorldSize : Nat
  pcpWorldSize : Nat
  blockPool : Pool Digest
  singleTypeManagers : List (Manager Digest)

structure KVCacheConfig where
  numBlocks : Nat
  kvCacheGroups : List KVCacheSpec

structure KVCacheManager (Digest : Type) where
  maxModelLen : Nat
  enableCaching : Bool
  coordinator : Coordinator Digest

variable {Digest : Type} [DecidableEq Digest]

/-- A call on every manager in turn, which may change the shared pool. -/
def mapManagers {Result : Type}
    (call : Pool Digest → Manager Digest → Option (Result × Pool Digest × Manager Digest)) :
    Pool Digest → List (Manager Digest) →
      Option (List Result × Pool Digest × List (Manager Digest))
  | pool, [] => some ([], pool, [])
  | pool, manager :: rest =>
    match call pool manager with
    | none => none
    | some (result, pool, manager) =>
      (mapManagers call pool rest).map fun (results, pool, managers) =>
        (result :: results, pool, manager :: managers)

/-- The entry of one group; the shared empty object has an empty entry for each. -/
def blocksAt (newComputedBlocks : Option KVCacheBlocks) (group : Nat) : Option (List BlockId) :=
  match newComputedBlocks with
  | none => some []
  | some blocks => blocks[group]?

namespace Coordinator

def initManagers (enableCaching : Bool) (dcpWorldSize pcpWorldSize : Nat) :
    List KVCacheSpec → Nat → Pool Digest → Option (Pool Digest × List (Manager Digest))
  | [], _, pool => some (pool, [])
  | spec :: rest, groupId, pool =>
    match Manager.init pool spec enableCaching groupId dcpWorldSize pcpWorldSize with
    | none => none
    | some (pool, manager) =>
      (initManagers enableCaching dcpWorldSize pcpWorldSize rest (groupId + 1) pool).map
        fun (pool, managers) => (pool, manager :: managers)

/-- The class that `get_kv_cache_coordinator` chooses. -/
def kindOf (config : KVCacheConfig) (enableCaching : Bool) : CoordinatorKind :=
  if enableCaching = false ∨ config.kvCacheGroups = [] then .noPrefixCache
  else if config.kvCacheGroups.length = 1 then .unitary
  else .hybrid

/-- The assertions of the constructors. -/
def supports (kind : CoordinatorKind) (config : KVCacheConfig)
    (dcpWorldSize pcpWorldSize hashBlockSize : Nat) : Bool :=
  match kind with
  | .noPrefixCache => true
  | .unitary =>
    config.kvCacheGroups.all fun spec =>
      decide (hashBlockSize = spec.blockSize * (dcpWorldSize * pcpWorldSize))
  | .hybrid =>
    config.kvCacheGroups.all (fun spec => decide (spec.blockSize % hashBlockSize = 0)) &&
      decide (dcpWorldSize = 1) && decide (pcpWorldSize = 1) &&
      decide (1 < (splitKvCacheGroups config.kvCacheGroups).length)

/-- `get_kv_cache_coordinator`. -/
def init (config : KVCacheConfig) (useEagle enableCaching enableKvCacheEvents : Bool)
    (dcpWorldSize pcpWorldSize hashBlockSize : Nat) : Option (Coordinator Digest) :=
  let kind := kindOf config enableCaching
  let enableCaching := decide (kind ≠ .noPrefixCache)
  if supports kind config dcpWorldSize pcpWorldSize hashBlockSize = false then none
  else
    match Pool.init config.numBlocks enableCaching hashBlockSize enableKvCacheEvents with
    | none => none
    | some pool =>
      (initManagers enableCaching dcpWorldSize pcpWorldSize config.kvCacheGroups 0 pool).map
        fun (pool, managers) =>
          ⟨kind, useEagle, dcpWorldSize, pcpWorldSize, pool, managers⟩

def specs (coordinator : Coordinator Digest) : List KVCacheSpec :=
  coordinator.singleTypeManagers.map (·.kvCacheSpec)

/-- A call on every manager that returns nothing. -/
def forEach (coordinator : Coordinator Digest)
    (call : Pool Digest → Manager Digest → Option (Pool Digest × Manager Digest)) :
    Option (Coordinator Digest) :=
  (mapManagers (fun pool manager => (call pool manager).map fun changed => ((), changed))
      coordinator.blockPool coordinator.singleTypeManagers).map fun (_, pool, managers) =>
    { coordinator with blockPool := pool, singleTypeManagers := managers }

def getNumBlocksToAllocate (coordinator : Coordinator Digest) (requestId : ReqId) (numTokens : Int)
    (newComputedBlocks : Option KVCacheBlocks) (numEncoderTokens : Nat)
    (totalComputedTokens numTokensMainModel : Int) : Option Int :=
  (coordinator.singleTypeManagers.mapM fun (manager : Manager Digest) =>
    match manager.kvCacheSpec with
    | .crossAttention _ =>
      manager.getNumBlocksToAllocate coordinator.blockPool requestId numEncoderTokens [] 0
        numEncoderTokens
    | _ =>
      match blocksAt newComputedBlocks manager.kvCacheGroupId with
      | none => none
      | some blocks =>
        manager.getNumBlocksToAllocate coordinator.blockPool requestId numTokens blocks
          totalComputedTokens numTokensMainModel).map List.sum

def allocateNewComputedBlocks (coordinator : Coordinator Digest) (requestId : ReqId)
    (newComputedBlocks : Option KVCacheBlocks)
    (numLocalComputedTokens numExternalComputedTokens : Int) : Option (Coordinator Digest) :=
  coordinator.forEach fun pool manager =>
    match blocksAt newComputedBlocks manager.kvCacheGroupId with
    | none => none
    | some blocks =>
      manager.allocateNewComputedBlocks pool requestId blocks numLocalComputedTokens
        numExternalComputedTokens

def allocateNewBlocks (coordinator : Coordinator Digest) (requestId : ReqId)
    (numTokens numTokensMainModel : Int) (numEncoderTokens : Nat) :
    Option (KVCacheBlocks × Coordinator Digest) :=
  (mapManagers
      (fun pool manager =>
        let numTokens : Int :=
          match manager.kvCacheSpec with
          | .crossAttention _ => numEncoderTokens
          | _ => numTokens
        manager.allocateNewBlocks pool requestId numTokens numTokensMainModel)
      coordinator.blockPool coordinator.singleTypeManagers).map fun (blocks, pool, managers) =>
    (blocks, { coordinator with blockPool := pool, singleTypeManagers := managers })

def cacheBlocks (coordinator : Coordinator Digest) (request : Request Digest)
    (numComputedTokens : Int) : Option (Coordinator Digest) :=
  coordinator.forEach fun pool manager => manager.cacheBlocks pool request numComputedTokens

def free (coordinator : Coordinator Digest) (requestId : ReqId) : Option (Coordinator Digest) :=
  coordinator.forEach fun pool manager => manager.free pool requestId

def removeSkippedBlocks (coordinator : Coordinator Digest) (requestId : ReqId)
    (totalComputedTokens : Int) : Option (Coordinator Digest) :=
  coordinator.forEach fun pool manager =>
    manager.removeSkippedBlocks pool requestId totalComputedTokens

omit [DecidableEq Digest] in
def getBlocks (coordinator : Coordinator Digest) (requestId : ReqId) : KVCacheBlocks :=
  coordinator.singleTypeManagers.map fun manager => manager.blocksOf requestId

omit [DecidableEq Digest] in
def getNumCommonPrefixBlocks (coordinator : Coordinator Digest) (requestId : ReqId) :
    List Nat × Coordinator Digest :=
  match coordinator.kind with
  | .noPrefixCache => (coordinator.singleTypeManagers.map fun _ => 0, coordinator)
  | _ =>
    let counted := coordinator.singleTypeManagers.map fun manager =>
      manager.getNumCommonPrefixBlocks coordinator.blockPool requestId
    (counted.map Prod.fst, { coordinator with singleTypeManagers := counted.map Prod.snd })

/-- `find_longest_cache_hit` of the coordinator classes. -/
def findLongestCacheHit (coordinator : Coordinator Digest) (blockHashes : List Digest)
    (maxCacheHitLength : Nat) : Option (KVCacheBlocks × Nat) :=
  match coordinator.kind with
  | .noPrefixCache => some (coordinator.singleTypeManagers.map fun _ => [], 0)
  | .unitary =>
    match coordinator.specs with
    | [] => none
    | spec :: _ =>
      let blockSize := spec.blockSize * coordinator.dcpWorldSize * coordinator.pcpWorldSize
      let hashes := hashesWithBlockSize blockHashes coordinator.blockPool.hashBlockSize blockSize
      match CacheHit.findLongestCacheHit spec hashes maxCacheHitLength [0] coordinator.blockPool
          coordinator.useEagle blockSize coordinator.dcpWorldSize coordinator.pcpWorldSize with
      | none => none
      | some hitBlocks =>
        hitBlocks.head?.map fun blocks => (hitBlocks, blocks.length * blockSize)
  | .hybrid =>
    HybridSearch.findLongestCacheHit
      ⟨coordinator.specs, coordinator.blockPool, coordinator.blockPool.hashBlockSize,
        coordinator.useEagle, blockHashes⟩ maxCacheHitLength

omit [DecidableEq Digest] in
def newStepStarts (coordinator : Coordinator Digest) : Coordinator Digest :=
  { coordinator with
    singleTypeManagers := coordinator.singleTypeManagers.map fun manager =>
      match manager.kvCacheSpec with
      | .mamba _ => manager.newStepStarts
      | _ => manager }

end Coordinator

namespace KVCacheManager

def init (config : KVCacheConfig) (maxModelLen hashBlockSize : Nat)
    (enableCaching useEagle enableKvCacheEvents : Bool) (dcpWorldSize pcpWorldSize : Nat) :
    Option (KVCacheManager Digest) :=
  (Coordinator.init config useEagle enableCaching enableKvCacheEvents dcpWorldSize pcpWorldSize
      hashBlockSize).map fun coordinator => ⟨maxModelLen, enableCaching, coordinator⟩

/-- The shared empty object stands for blocks that are all empty. -/
def createKvCacheBlocks (blocks : KVCacheBlocks) : Option KVCacheBlocks :=
  if blocks.any (fun group => !group.isEmpty) then some blocks else none

def getComputedBlocks (manager : KVCacheManager Digest) (request : Request Digest) :
    Option (Option KVCacheBlocks × Nat) :=
  if manager.enableCaching = false ∨ request.skipReadingPrefixCache then some (none, 0)
  else
    (manager.coordinator.findLongestCacheHit request.blockHashes (request.numTokens - 1)).map
      fun (computedBlocks, numNewComputedTokens) =>
        (createKvCacheBlocks computedBlocks, numNewComputedTokens)

structure AllocateArgs where
  numNewTokens : Nat
  numNewComputedTokens : Nat
  newComputedBlocks : Option KVCacheBlocks
  numLookaheadTokens : Nat
  numExternalComputedTokens : Nat
  delayCacheBlocks : Bool
  numEncoderTokens : Nat

/-- `allocate_slots`: the new blocks, if they could be allocated. -/
def allocateSlots (manager : KVCacheManager Digest) (request : Request Digest)
    (args : AllocateArgs) : Option (Option KVCacheBlocks × KVCacheManager Digest) :=
  if args.numNewTokens = 0 ∧ args.numExternalComputedTokens = 0 then none
  else
    let numLocalComputedTokens : Int := request.numComputedTokens + args.numNewComputedTokens
    let totalComputedTokens : Int :=
      min (numLocalComputedTokens + args.numExternalComputedTokens) manager.maxModelLen
    let numTokensMainModel := totalComputedTokens + args.numNewTokens
    let numTokensNeedSlot : Int :=
      min (numTokensMainModel + args.numLookaheadTokens) manager.maxModelLen
    match manager.coordinator.removeSkippedBlocks request.requestId totalComputedTokens with
    | none => none
    | some removed =>
      match removed.getNumBlocksToAllocate request.requestId numTokensNeedSlot
          args.newComputedBlocks args.numEncoderTokens
          (numLocalComputedTokens + args.numExternalComputedTokens) numTokensMainModel with
      | none => none
      | some numBlocksToAllocate =>
        if numBlocksToAllocate > removed.blockPool.getNumFreeBlocks then
          some (none, { manager with coordinator := removed })
        else
          let computed :=
            if args.newComputedBlocks ≠ none ∨ args.numExternalComputedTokens > 0 then
              removed.allocateNewComputedBlocks request.requestId args.newComputedBlocks
                numLocalComputedTokens args.numExternalComputedTokens
            else some removed
          match computed with
          | none => none
          | some computed =>
            match computed.allocateNewBlocks request.requestId numTokensNeedSlot
                numTokensMainModel args.numEncoderTokens with
            | none => none
            | some (newBlocks, allocated) =>
              if manager.enableCaching = false ∨ args.delayCacheBlocks then
                some (some newBlocks, { manager with coordinator := allocated })
              else
                (allocated.cacheBlocks request
                    (min (totalComputedTokens + args.numNewTokens) request.numTokens)).map
                  fun cached => (some newBlocks, { manager with coordinator := cached })

def free (manager : KVCacheManager Digest) (request : Request Digest) :
    Option (KVCacheManager Digest) :=
  (manager.coordinator.free request.requestId).map fun coordinator =>
    { manager with coordinator := coordinator }

def removeSkippedBlocks (manager : KVCacheManager Digest) (requestId : ReqId)
    (totalComputedTokens : Int) : Option (KVCacheManager Digest) :=
  (manager.coordinator.removeSkippedBlocks requestId totalComputedTokens).map fun coordinator =>
    { manager with coordinator := coordinator }

def evictBlocks (manager : KVCacheManager Digest) (blockIds : List BlockId) :
    Option (KVCacheManager Digest) :=
  (manager.coordinator.blockPool.evictBlocks blockIds).map fun pool =>
    let coordinator := { manager.coordinator with blockPool := pool }
    { manager with coordinator := coordinator }

def resetPrefixCache (manager : KVCacheManager Digest) : Bool × KVCacheManager Digest :=
  let (reset, pool) := manager.coordinator.blockPool.resetPrefixCache
  let coordinator := { manager.coordinator with blockPool := pool }
  (reset, { manager with coordinator := coordinator })

omit [DecidableEq Digest] in
def getBlocks (manager : KVCacheManager Digest) (requestId : ReqId) : KVCacheBlocks :=
  manager.coordinator.getBlocks requestId

def cacheBlocks (manager : KVCacheManager Digest) (request : Request Digest)
    (numComputedTokens : Int) : Option (KVCacheManager Digest) :=
  if manager.enableCaching then
    (manager.coordinator.cacheBlocks request numComputedTokens).map fun coordinator =>
      { manager with coordinator := coordinator }
  else some manager

omit [DecidableEq Digest] in
def getNumCommonPrefixBlocks (manager : KVCacheManager Digest) (requestId : ReqId) :
    List Nat × KVCacheManager Digest :=
  let (counts, coordinator) := manager.coordinator.getNumCommonPrefixBlocks requestId
  (counts, { manager with coordinator := coordinator })

omit [DecidableEq Digest] in
/-- The ids of the new blocks of all groups, and the manager with none noted. -/
def takeNewBlockIds (manager : KVCacheManager Digest) : List BlockId × KVCacheManager Digest :=
  let managers := manager.coordinator.singleTypeManagers
  let coordinator :=
    { manager.coordinator with
      singleTypeManagers := managers.map fun single => single.takeNewBlockIds.2 }
  (managers.flatMap fun single => single.takeNewBlockIds.1,
    { manager with coordinator := coordinator })

omit [DecidableEq Digest] in
def newStepStarts (manager : KVCacheManager Digest) : KVCacheManager Digest :=
  { manager with coordinator := manager.coordinator.newStepStarts }

end KVCacheManager
end VllmDcu.CacheManager

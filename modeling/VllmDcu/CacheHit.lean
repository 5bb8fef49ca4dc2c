import VllmDcu.SingleTypeManager
import Mathlib.Algebra.GCDMonoid.Nat

/-! The search for the longest prefix cache hit: one search for each attention
type, and the fixed-point iteration of the hybrid coordinator over the groups of
equal specs. The computed blocks of the groups that share a search are kept as
one list for each group. Failed assertions and raised errors are `none`. -/
namespace VllmDcu.CacheHit
open Requests FreeBlockQueue BlockPool KVCacheInterface MathUtils

variable {Digest : Type}

/-- The block lists that the rows of one cached block for each group spell. -/
def columns (numGroups : Nat) (rows : List (List BlockId)) : List (List BlockId) :=
  (List.range numGroups).map fun group => rows.filterMap fun row => row[group]?

/-- The loop that pops blocks until the length is aligned; the length it leaves. -/
def alignedLength (blockSize alignmentTokens : Nat) : Nat → Nat
  | 0 => 0
  | length + 1 =>
    if blockSize ≠ alignmentTokens ∧ (length + 1) * blockSize % alignmentTokens ≠ 0 then
      alignedLength blockSize alignmentTokens length
    else length + 1

/-- The cached rows of the longest prefix. -/
def prefixRows (pool : Pool Digest) (kvCacheGroupIds : List Nat) :
    List (List Digest) → List (List BlockId)
  | [] => []
  | blockHash :: rest =>
    match pool.getCachedBlock blockHash kvCacheGroupIds with
    | none => []
    | some cached => cached :: prefixRows pool kvCacheGroupIds rest

/-- `FullAttentionManager.find_longest_cache_hit`. -/
def fullAttentionHit (blockHashes : List (List Digest)) (maxLength : Nat)
    (kvCacheGroupIds : List Nat) (pool : Pool Digest) (blockSize : Nat) (useEagle : Bool)
    (alignmentTokens : Nat) : List (List BlockId) :=
  let rows := prefixRows pool kvCacheGroupIds (blockHashes.take (maxLength / blockSize))
  let rows := if useEagle then rows.dropLast else rows
  columns kvCacheGroupIds.length (rows.take (alignedLength blockSize alignmentTokens rows.length))

/-- The search from right to left: the computed blocks, the contiguous blocks at
the end, and whether there are enough of them. -/
def slidingWindowLoop (blockHashes : List (List Digest)) (kvCacheGroupIds : List Nat)
    (pool : Pool Digest) (blockSize alignmentTokens : Nat) (needed : Int) :
    Nat → Nat → List (List BlockId) → Option (List (List BlockId) × Nat × Bool)
  | 0, numContiguousBlocks, computed => some (computed, numContiguousBlocks, false)
  | i + 1, numContiguousBlocks, computed =>
    match blockHashes[i]? with
    | none => none
    | some blockHash =>
      match pool.getCachedBlock blockHash kvCacheGroupIds with
      | none =>
        slidingWindowLoop blockHashes kvCacheGroupIds pool blockSize alignmentTokens needed i
          0 computed
      | some cached =>
        if numContiguousBlocks = 0 ∧ blockSize ≠ alignmentTokens ∧
            (i + 1) * blockSize % alignmentTokens ≠ 0 then
          slidingWindowLoop blockHashes kvCacheGroupIds pool blockSize alignmentTokens needed
            i numContiguousBlocks computed
        else
          let computed := computed.zipWith (fun blocks block => blocks.set i block) cached
          let numContiguousBlocks := numContiguousBlocks + 1
          if numContiguousBlocks ≥ needed then
            some (computed.map (·.take (i + numContiguousBlocks)), numContiguousBlocks, true)
          else
            slidingWindowLoop blockHashes kvCacheGroupIds pool blockSize alignmentTokens
              needed i numContiguousBlocks computed

/-- `SlidingWindowManager.find_longest_cache_hit`. -/
def slidingWindowHit (blockHashes : List (List Digest)) (maxLength : Nat)
    (kvCacheGroupIds : List Nat) (pool : Pool Digest) (spec : SlidingWindowSpec) (useEagle : Bool)
    (alignmentTokens : Nat) : Option (List (List BlockId)) :=
  let blockSize := spec.blockSize
  let needed := cdiv ((spec.slidingWindow : Int) - 1) blockSize + if useEagle then 1 else 0
  let maxNumBlocks := maxLength / blockSize
  match slidingWindowLoop blockHashes kvCacheGroupIds pool blockSize alignmentTokens needed
      maxNumBlocks 0 (kvCacheGroupIds.map fun _ => List.replicate maxNumBlocks pool.nullBlock) with
  | none => none
  | some (computed, numContiguousBlocks, matchFound) =>
    let computed :=
      if matchFound then computed
      else computed.map (·.take (alignedLength blockSize alignmentTokens numContiguousBlocks))
    if useEagle ∧ computed.head? ≠ some [] then
      if blockSize = alignmentTokens then some (computed.map List.dropLast) else none
    else some computed

/-- `ChunkedLocalAttentionManager.find_longest_cache_hit`. -/
def chunkedLocalHit (blockHashes : List (List Digest)) (maxLength : Nat)
    (kvCacheGroupIds : List Nat) (pool : Pool Digest) (spec : ChunkedLocalAttentionSpec)
    (useEagle : Bool) (alignmentTokens : Nat) : Option (List (List BlockId)) :=
  if useEagle ∨ spec.blockSize ≠ alignmentTokens then none
  else
    let maxNumBlocks := maxLength / spec.blockSize
    let localAttentionStartIdx :=
      maxLength / spec.attentionChunkSize * spec.attentionChunkSize
    let startBlock := localAttentionStartIdx / spec.blockSize
    let window := (blockHashes.take maxNumBlocks).drop startBlock
    let rows := prefixRows pool kvCacheGroupIds window
    if rows.length = window.length ∧ window.length < maxNumBlocks - startBlock then none
    else
      some ((columns kvCacheGroupIds.length rows).map fun blocks =>
        List.replicate startBlock pool.nullBlock ++ blocks)

/-- The search from right to left for the last aligned state. -/
def mambaLoop (blockHashes : List (List Digest)) (kvCacheGroupIds : List Nat) (pool : Pool Digest)
    (blockSize alignmentTokens : Nat) : Nat → Option (List (List BlockId))
  | 0 => some (kvCacheGroupIds.map fun _ => [])
  | i + 1 =>
    match blockHashes[i]? with
    | none => none
    | some blockHash =>
      match pool.getCachedBlock blockHash kvCacheGroupIds with
      | none => mambaLoop blockHashes kvCacheGroupIds pool blockSize alignmentTokens i
      | some cached =>
        if blockSize ≠ alignmentTokens ∧ (i + 1) * blockSize % alignmentTokens ≠ 0 then
          mambaLoop blockHashes kvCacheGroupIds pool blockSize alignmentTokens i
        else some (cached.map fun block => List.replicate i pool.nullBlock ++ [block])

/-- `find_longest_cache_hit` of the manager class of a spec. -/
def findLongestCacheHit (spec : KVCacheSpec) (blockHashes : List (List Digest)) (maxLength : Nat)
    (kvCacheGroupIds : List Nat) (pool : Pool Digest) (useEagle : Bool)
    (alignmentTokens dcpWorldSize pcpWorldSize : Nat) : Option (List (List BlockId)) :=
  let contextParallel := dcpWorldSize * pcpWorldSize
  match spec with
  | .slidingWindow spec =>
    if contextParallel ≠ 1 then none
    else
      slidingWindowHit blockHashes maxLength kvCacheGroupIds pool spec useEagle alignmentTokens
  | .chunkedLocalAttention spec =>
    if contextParallel ≠ 1 then none
    else chunkedLocalHit blockHashes maxLength kvCacheGroupIds pool spec useEagle alignmentTokens
  | .mamba spec =>
    if contextParallel ≠ 1 then none
    else
      mambaLoop blockHashes kvCacheGroupIds pool spec.blockSize alignmentTokens
        (maxLength / spec.blockSize)
  | .crossAttention _ => none
  | spec =>
    some (fullAttentionHit blockHashes maxLength kvCacheGroupIds pool
      (spec.blockSize * contextParallel) useEagle alignmentTokens)

/-- The KV cache groups of one spec. -/
structure AttentionGroup where
  spec : KVCacheSpec
  groupIds : List Nat

def addToGroup (spec : KVCacheSpec) (groupId : Nat) : List AttentionGroup → List AttentionGroup
  | [] => [⟨spec, [groupId]⟩]
  | group :: rest =>
    if group.spec = spec then ⟨spec, group.groupIds ++ [groupId]⟩ :: rest
    else group :: addToGroup spec groupId rest

/-- The groups of equal specs, in the order of their first KV cache group. -/
def splitKvCacheGroups (specs : List KVCacheSpec) : List AttentionGroup :=
  specs.zipIdx.foldl (fun groups (spec, groupId) => addToGroup spec groupId groups) []

/-- `verify_and_split_kv_cache_groups` puts full attention first. -/
def attentionGroups (specs : List KVCacheSpec) : List AttentionGroup :=
  let groups := splitKvCacheGroups specs
  groups.filter (fun group => group.spec.isFullAttention) ++
    groups.filter (fun group => !group.spec.isFullAttention)

def lcmBlockSize (specs : List KVCacheSpec) : Nat :=
  (splitKvCacheGroups specs).foldr (fun group size => Nat.lcm group.spec.blockSize size) 1

/-- What `HybridKVCacheCoordinator.find_longest_cache_hit` searches with. -/
structure HybridSearch (Digest : Type) where
  specs : List KVCacheSpec
  pool : Pool Digest
  hashBlockSize : Nat
  useEagle : Bool
  blockHashes : List Digest

abbrev HitBlocks := Nat → Option (List BlockId)

namespace HybridSearch

def groups (search : HybridSearch Digest) : List AttentionGroup := attentionGroups search.specs

/-- One attention type's search for a hit of at most `maxLength` tokens. -/
def find (search : HybridSearch Digest) (group : AttentionGroup) (maxLength : Nat) :
    Option (List (List BlockId)) :=
  findLongestCacheHit group.spec
    (hashesWithBlockSize search.blockHashes search.hashBlockSize group.spec.blockSize) maxLength
    group.groupIds search.pool search.useEagle (lcmBlockSize search.specs) 1 1

def assign (hitBlocksByGroup : HitBlocks) (groupIds : List Nat) (hitBlocks : List (List BlockId)) :
    HitBlocks :=
  (groupIds.zip hitBlocks).foldl (fun byGroup (groupId, blocks) =>
    Function.update byGroup groupId (some blocks)) hitBlocksByGroup

/-- The `for` loop over the attention groups. -/
def pass (search : HybridSearch Digest) : List AttentionGroup → Nat → HitBlocks →
    Option (Nat × HitBlocks)
  | [], currHitLength, byGroup => some (currHitLength, byGroup)
  | group :: rest, currHitLength, byGroup =>
    match group.groupIds.head? with
    | none => none
    | some firstId =>
      if group.spec.isFullAttention ∧ (byGroup firstId).isSome then
        pass search rest (currHitLength / group.spec.blockSize * group.spec.blockSize) byGroup
      else
        match search.find group currHitLength with
        | none => none
        | some hitBlocks =>
          match hitBlocks.head? with
          | none => none
          | some blocks =>
            pass search rest (blocks.length * group.spec.blockSize)
              (assign byGroup group.groupIds hitBlocks)

def isSimpleHybrid (search : HybridSearch Digest) : Bool :=
  match search.groups with
  | [first, _] => first.spec.isFullAttention
  | _ => false

/-- The `while True` loop; out of fuel it has no result. -/
def hitLoop (search : HybridSearch Digest) : Nat → Nat → HitBlocks → Option (Nat × HitBlocks)
  | 0, _, _ => none
  | fuel + 1, hitLength, byGroup =>
    match search.pass search.groups hitLength byGroup with
    | none => none
    | some (currHitLength, byGroup) =>
      if currHitLength ≥ hitLength then some (hitLength, byGroup)
      else if search.isSimpleHybrid then some (currHitLength, byGroup)
      else hitLoop search fuel currHitLength byGroup

/-- Only the first attention group is cut to the final hit length. -/
def truncate (search : HybridSearch Digest) (hitLength : Nat) (byGroup : HitBlocks) : HitBlocks :=
  match search.groups with
  | [] => byGroup
  | first :: _ =>
    if first.spec.isFullAttention then
      fun groupId =>
        if groupId ∈ first.groupIds then
          (byGroup groupId).map fun blocks => blocks.take (hitLength / first.spec.blockSize)
        else byGroup groupId
    else byGroup

/-- `HybridKVCacheCoordinator.find_longest_cache_hit`; every round but the last
shortens the hit, so the rounds are bounded by its length. -/
def findLongestCacheHit (search : HybridSearch Digest) (maxCacheHitLength : Nat) :
    Option (List (List BlockId) × Nat) :=
  (search.hitLoop (maxCacheHitLength + 1) maxCacheHitLength fun _ => none).map
    fun (hitLength, byGroup) =>
      let byGroup := search.truncate hitLength byGroup
      ((List.range search.specs.length).map fun groupId => (byGroup groupId).getD [], hitLength)

end HybridSearch
end VllmDcu.CacheHit

import Mathlib.Algebra.GroupWithZero.Nat
import VllmDcu.MathUtils
import Mathlib.Data.List.Dedup

/-! The KV cache format of a layer. A dtype is its name and the size
`get_dtype_size` gives it. -/
namespace VllmDcu.KVCacheInterface
open MathUtils

structure Dtype where
  name : String
  size : Nat
  deriving DecidableEq

structure AttentionSpec where
  blockSize : Nat
  numKvHeads : Nat
  headSize : Nat
  dtype : Dtype
  pageSizePadded : Option Nat
  deriving DecidableEq

structure FullAttentionSpec extends AttentionSpec where
  headSizeV : Nat
  slidingWindow : Option Nat
  attentionChunkSize : Option Nat
  deriving DecidableEq

structure MLAAttentionSpec extends FullAttentionSpec where
  cacheDtypeStr : Option String
  deriving DecidableEq

structure SinkFullAttentionSpec extends FullAttentionSpec where
  sinkLen : Option Nat
  deriving DecidableEq

structure SlidingWindowSpec extends AttentionSpec where
  slidingWindow : Nat
  deriving DecidableEq

structure ChunkedLocalAttentionSpec extends AttentionSpec where
  attentionChunkSize : Nat
  deriving DecidableEq

structure CrossAttentionSpec extends AttentionSpec
  deriving DecidableEq

inductive MambaCacheMode where
  | none
  | all
  | align
  deriving DecidableEq

structure MambaSpec where
  blockSize : Nat
  shapes : List (List Nat)
  dtypes : List Dtype
  pageSizePadded : Option Nat
  mambaType : String
  mambaCacheMode : MambaCacheMode
  numSpeculativeBlocks : Nat
  deriving DecidableEq

inductive KVCacheSpec where
  | fullAttention (spec : FullAttentionSpec)
  | mlaAttention (spec : MLAAttentionSpec)
  | sinkFullAttention (spec : SinkFullAttentionSpec)
  | slidingWindow (spec : SlidingWindowSpec)
  | chunkedLocalAttention (spec : ChunkedLocalAttentionSpec)
  | mamba (spec : MambaSpec)
  | crossAttention (spec : CrossAttentionSpec)
  deriving DecidableEq

def AttentionSpec.realPageSizeBytes (spec : AttentionSpec) : Nat :=
  2 * spec.blockSize * spec.numKvHeads * spec.headSize * spec.dtype.size

def FullAttentionSpec.realPageSizeBytes (spec : FullAttentionSpec) : Nat :=
  spec.blockSize * spec.numKvHeads * (spec.headSize + spec.headSizeV) * spec.dtype.size

def MLAAttentionSpec.realPageSizeBytes (spec : MLAAttentionSpec) : Nat :=
  if spec.cacheDtypeStr = some "fp8_ds_mla" then spec.blockSize * 656
  else spec.blockSize * spec.numKvHeads * spec.headSize * spec.dtype.size

def MambaSpec.realPageSizeBytes (spec : MambaSpec) : Nat :=
  ((spec.shapes.zip spec.dtypes).map fun (shape, dtype) => shape.prod * dtype.size).sum

/-- The padded page size, which must not be below the real one. -/
def paddedPageSize (realPageSize : Nat) : Option Nat → Option Nat
  | none => some realPageSize
  | some padded => if padded ≥ realPageSize then some padded else none

namespace KVCacheSpec

def blockSize : KVCacheSpec → Nat
  | fullAttention spec => spec.blockSize
  | mlaAttention spec => spec.blockSize
  | sinkFullAttention spec => spec.blockSize
  | slidingWindow spec => spec.blockSize
  | chunkedLocalAttention spec => spec.blockSize
  | mamba spec => spec.blockSize
  | crossAttention spec => spec.blockSize

/-- `isinstance(spec, FullAttentionSpec)`. -/
def isFullAttention : KVCacheSpec → Bool
  | fullAttention _ | mlaAttention _ | sinkFullAttention _ => true
  | _ => false

/-- The part of a full-attention spec that its subclasses share. -/
def asFullAttention : KVCacheSpec → Option FullAttentionSpec
  | fullAttention spec => some spec
  | mlaAttention spec => some spec.toFullAttentionSpec
  | sinkFullAttention spec => some spec.toFullAttentionSpec
  | _ => none

def pageSizeBytes : KVCacheSpec → Option Nat
  | fullAttention spec => paddedPageSize spec.realPageSizeBytes spec.pageSizePadded
  | mlaAttention spec => paddedPageSize spec.realPageSizeBytes spec.pageSizePadded
  | sinkFullAttention spec => paddedPageSize spec.realPageSizeBytes spec.pageSizePadded
  | slidingWindow spec => paddedPageSize spec.realPageSizeBytes spec.pageSizePadded
  | chunkedLocalAttention spec => paddedPageSize spec.realPageSizeBytes spec.pageSizePadded
  | mamba spec => paddedPageSize spec.realPageSizeBytes spec.pageSizePadded
  | crossAttention spec => paddedPageSize spec.realPageSizeBytes spec.pageSizePadded

/-- `dataclasses.replace(spec, block_size=...)`. -/
def withBlockSize (blockSize : Nat) : KVCacheSpec → KVCacheSpec
  | fullAttention spec => fullAttention { spec with blockSize := blockSize }
  | mlaAttention spec => mlaAttention { spec with blockSize := blockSize }
  | sinkFullAttention spec => sinkFullAttention { spec with blockSize := blockSize }
  | slidingWindow spec => slidingWindow { spec with blockSize := blockSize }
  | chunkedLocalAttention spec => chunkedLocalAttention { spec with blockSize := blockSize }
  | mamba spec => mamba { spec with blockSize := blockSize }
  | crossAttention spec => crossAttention { spec with blockSize := blockSize }

end KVCacheSpec

/-- The fields of `VllmConfig` that size the KV cache; an original length of -1
asks for the longest one that fits. -/
structure VllmConfig where
  maxModelLen : Nat
  originalMaxModelLen : Int
  maxNumBatchedTokens : Nat
  maxNumEncoderInputTokens : Nat
  disableHybridKvCacheManager : Bool
  mambaCacheMode : MambaCacheMode
  decodeContextParallelSize : Nat
  prefillContextParallelSize : Nat
  numGpuBlocksOverride : Option Nat

namespace KVCacheSpec

/-- `FullAttentionSpec.max_memory_usage_bytes` for a page size. -/
def fullMemoryUsage (config : VllmConfig) (blockSize pageSize : Nat) : Int :=
  let contextParallel := config.decodeContextParallelSize * config.prefillContextParallelSize
  let maxModelLen : Int :=
    if contextParallel > 1 then cdiv config.maxModelLen contextParallel else config.maxModelLen
  cdiv maxModelLen blockSize * pageSize

def maxMemoryUsageBytes (config : VllmConfig) (spec : KVCacheSpec) : Option Int :=
  match spec.pageSizeBytes with
  | none => none
  | some pageSize =>
    match spec with
    | fullAttention _ | mlaAttention _ | sinkFullAttention _ =>
      some (fullMemoryUsage config spec.blockSize pageSize)
    | slidingWindow spec =>
      if config.decodeContextParallelSize ≠ 1 then none
      else
        let numTokens : Int :=
          min (spec.slidingWindow - 1 + config.maxNumBatchedTokens) config.maxModelLen
        some ((cdiv numTokens spec.blockSize + 1) * pageSize)
    | chunkedLocalAttention spec =>
      let numTokens : Int :=
        min (spec.attentionChunkSize + config.maxNumBatchedTokens) config.maxModelLen
      some (cdiv numTokens spec.blockSize * pageSize)
    | mamba spec =>
      some <|
        match config.mambaCacheMode with
        | .all => cdiv config.maxModelLen spec.blockSize * pageSize
        | .align => pageSize * (2 + spec.numSpeculativeBlocks)
        | .none => pageSize * (1 + spec.numSpeculativeBlocks)
    | crossAttention spec =>
      some (cdiv config.maxNumEncoderInputTokens spec.blockSize * pageSize)

end KVCacheSpec

/-! Merging the specs of the layers in one group. -/

/-- A failed assertion means that the layers are not uniform; any other error is
raised to the caller. -/
inductive MergeError where
  | assertionError
  | valueError

def mergeWindowSizes (windowSizes : List (Option Nat)) : Except MergeError (Option Nat) :=
  match (windowSizes.filterMap id).dedup with
  | [] => .ok none
  | [size] => .ok (some size)
  | _ => .error .valueError

def FullAttentionSpec.merge (first : FullAttentionSpec) (specs : List KVCacheSpec) :
    Except MergeError FullAttentionSpec :=
  let fulls := specs.filterMap KVCacheSpec.asFullAttention
  if fulls.length ≠ specs.length then .error .assertionError
  else if specs.any (fun spec => match spec with | .mlaAttention _ => true | _ => false) then
    .error .assertionError
  else
    match mergeWindowSizes (fulls.map (·.slidingWindow)) with
    | .error error => .error error
    | .ok slidingWindow =>
      match mergeWindowSizes (fulls.map (·.attentionChunkSize)) with
      | .error error => .error error
      | .ok attentionChunkSize =>
        if fulls.all (fun spec => decide (spec.toAttentionSpec = first.toAttentionSpec)) = false
        then .error .assertionError
        else if slidingWindow.isSome ∧ attentionChunkSize.isSome then .error .assertionError
        else
          .ok { first with
            slidingWindow := slidingWindow, attentionChunkSize := attentionChunkSize }

/-- Nothing but the quantization is compared. -/
def MLAAttentionSpec.merge (first : MLAAttentionSpec) (specs : List KVCacheSpec) :
    Except MergeError MLAAttentionSpec :=
  let dtypes := specs.filterMap fun spec =>
    match spec with
    | .mlaAttention spec => some spec.cacheDtypeStr
    | _ => none
  if dtypes.length ≠ specs.length then .error .assertionError
  else if dtypes.all (fun dtype => decide (dtype = first.cacheDtypeStr)) = false then
    .error .assertionError
  else
    .ok { first with headSizeV := first.headSize, slidingWindow := none, attentionChunkSize := none }

/-- `merge` of the class of the first spec. -/
def KVCacheSpec.merge (first : KVCacheSpec) (specs : List KVCacheSpec) :
    Except MergeError KVCacheSpec :=
  match first with
  | .fullAttention spec => (spec.merge specs).map .fullAttention
  | .mlaAttention spec => (spec.merge specs).map .mlaAttention
  | .sinkFullAttention spec =>
    (spec.toFullAttentionSpec.merge specs).map fun merged =>
      .sinkFullAttention { merged with sinkLen := spec.sinkLen }
  | _ => if specs.all (fun spec => decide (spec = first)) then .ok first else .error .assertionError

/-- `UniformTypeKVCacheSpecs.is_uniform_type` for a map that is not empty. -/
def isUniformType (first : KVCacheSpec) (specs : List KVCacheSpec) : Bool :=
  if specs.all (fun spec => decide (spec.blockSize = first.blockSize)) = false then false
  else
    match first with
    | .fullAttention _ | .mlaAttention _ | .sinkFullAttention _ =>
      specs.all KVCacheSpec.isFullAttention
    | .crossAttention _ =>
      specs.all fun spec => match spec with | .crossAttention _ => true | _ => false
    | .slidingWindow one =>
      specs.all fun spec =>
        match spec with
        | .slidingWindow spec => decide (spec.slidingWindow = one.slidingWindow)
        | _ => false
    | .chunkedLocalAttention one =>
      specs.all fun spec =>
        match spec with
        | .chunkedLocalAttention spec => decide (spec.attentionChunkSize = one.attentionChunkSize)
        | _ => false
    | .mamba one =>
      specs.all fun spec =>
        match spec with
        | .mamba spec => decide (spec.numSpeculativeBlocks = one.numSpeculativeBlocks)
        | _ => false

end VllmDcu.KVCacheInterface

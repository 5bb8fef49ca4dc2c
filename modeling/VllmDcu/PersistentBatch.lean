import Mathlib.Data.Finset.Erase
import VllmDcu.LogitsProcessors

/-! The worker's persistent batch for a generation model. An array or a tensor is a
function of its index, and what lies beyond the batch may be stale. A row is as
long as the longest admitted request, so a write that would run over its end is
an error here. An exception of the source is `none`. -/
namespace VllmDcu.PersistentBatch
open Requests (Token ReqId LoRARequest)
open LogitsProcessors

abbrev Address := Nat

/-- `row[start : start + len(values)] = values` -/
def writeAt {Elem : Type} (row : Nat → Elem) (start : Nat) (values : List Elem) : Nat → Elem :=
  fun k => if start ≤ k then (values[k - start]?).getD (row k) else row k

/-- `row[start : stop] = value` -/
def fillRange {Elem : Type} (row : Nat → Elem) (start stop : Nat) (value : Elem) : Nat → Elem :=
  fun k => if start ≤ k ∧ k < stop then value else row k

/-- `target[:count] = source[:count]` -/
def copyPrefix {Elem : Type} (target source : Nat → Elem) (count : Nat) : Nat → Elem :=
  fun k => if k < count then source k else target k

/-- `array[i], array[j] = array[j], array[i]` where reading an entry copies it. -/
def swapEntries {Elem : Type} (array : Nat → Elem) (i j : Nat) : Nat → Elem :=
  Function.update (Function.update array i (array j)) j (array i)

/-! Block tables. -/

structure BlockTable where
  blocksPerKvBlock : Nat
  maxNumBlocksPerReq : Nat
  blockTable : Nat → Nat → Nat
  numBlocksPerRow : Nat → Nat

namespace BlockTable

def init (blocksPerKvBlock maxNumBlocksPerReq : Nat) : BlockTable where
  blocksPerKvBlock
  maxNumBlocksPerReq
  blockTable := fun _ _ => 0
  numBlocksPerRow := fun _ => 0

def mapToKernelBlocks (kvManagerBlockIds : List Nat) (blocksPerKvBlock : Nat) : List Nat :=
  if blocksPerKvBlock = 1 then kvManagerBlockIds
  else kvManagerBlockIds.flatMap fun block =>
    (List.range blocksPerKvBlock).map fun offset => block * blocksPerKvBlock + offset

def appendRow (table : BlockTable) (blockIds : List Nat) (rowIdx : Nat) : Option BlockTable :=
  if blockIds.isEmpty then some table
  else
    let kernelIds := mapToKernelBlocks blockIds table.blocksPerKvBlock
    let start := table.numBlocksPerRow rowIdx
    if start + kernelIds.length ≤ table.maxNumBlocksPerReq then
      some { table with
        numBlocksPerRow := Function.update table.numBlocksPerRow rowIdx (start + kernelIds.length)
        blockTable := Function.update table.blockTable rowIdx
          (writeAt (table.blockTable rowIdx) start kernelIds) }
    else none

def addRow (table : BlockTable) (blockIds : List Nat) (rowIdx : Nat) : Option BlockTable :=
  appendRow { table with numBlocksPerRow := Function.update table.numBlocksPerRow rowIdx 0 }
    blockIds rowIdx

def moveRow (table : BlockTable) (src tgt : Nat) : BlockTable :=
  let numBlocks := table.numBlocksPerRow src
  { table with
    blockTable := Function.update table.blockTable tgt
      (copyPrefix (table.blockTable tgt) (table.blockTable src) numBlocks)
    numBlocksPerRow := Function.update table.numBlocksPerRow tgt numBlocks }

/-- Indexing with a list of rows copies them, so both rows are read before either is written. -/
def swapRow (table : BlockTable) (src tgt : Nat) : BlockTable :=
  { table with
    numBlocksPerRow := swapEntries table.numBlocksPerRow src tgt
    blockTable := swapEntries table.blockTable src tgt }

end BlockTable

/-- One block table for each cache group. -/
def addRow : List BlockTable → List (List Nat) → Nat → Option (List BlockTable)
  | [], _, _ => some []
  | _ :: _, [], _ => none
  | table :: tables, blockIds :: rest, rowIdx => do
      let added ← table.addRow blockIds rowIdx
      let others ← addRow tables rest rowIdx
      return added :: others

/-! Requests as the worker caches them. -/

def lengthFromPromptTokenIdsOrEmbeds {Num : Type} (promptTokenIds : Option (List Token))
    (promptEmbeds : Option (List (List Num))) : Option Nat :=
  match promptTokenIds, promptEmbeds with
  | none, none => none
  | none, some embeds => some embeds.length
  | some tokens, none => some tokens.length
  | some tokens, some embeds => if embeds.length = tokens.length then some tokens.length else none

/-- Building an adapter request with an id below one raises an error. -/
structure AdapterRequest extends LoRARequest where
  positive : 0 < loraIntId
  deriving DecidableEq

/-- A request that gives neither form of its prompt, or two of different lengths, cannot be
built. -/
structure CachedRequestState (Num : Type) where
  reqId : ReqId
  promptTokenIds : Option (List Token)
  promptEmbeds : Option (List (List Num))
  samplingParams : SamplingParams Num
  generator : Option Address
  blockIds : List (List Nat)
  numComputedTokens : Nat
  outputTokenIds : ListRef
  loraRequest : Option AdapterRequest
  described : (lengthFromPromptTokenIdsOrEmbeds promptTokenIds promptEmbeds).isSome = true

namespace CachedRequestState
variable {Num : Type}

def numPromptTokens (request : CachedRequestState Num) : Nat :=
  (lengthFromPromptTokenIdsOrEmbeds request.promptTokenIds request.promptEmbeds).get
    request.described

def numTokens (request : CachedRequestState Num) (heap : Heap) : Nat :=
  request.numPromptTokens + (heap request.outputTokenIds).length

end CachedRequestState

/-! The batch. -/

structure BatchConfig (Num : Type) where
  maxNumReqs : Nat
  maxModelLen : Nat
  vocabSize : Nat
  /-- Blocks per cache block and length of a row, for each cache group. -/
  blockTables : List (Nat × Nat)
  float32 : Num → Num
  /-- What an entry of an uninitialised array happens to hold. -/
  unset : Num

structure LogitsProcessorStates (Num : Type) where
  minTokens : MinTokensLogitsProcessor
  logitBias : LogitBiasLogitsProcessor Num
  minP : MinPLogitsProcessor Num

/-- The rows of the mask over the batch; the other fields are read by the sampler only. -/
structure SamplingMetadata where
  allowedTokenIdsMask : Option (List (List Bool))
  deriving DecidableEq

structure InputBatch (Num : Type) where
  config : BatchConfig Num
  reqIds : List (Option ReqId)
  reqIdToIndex : Dict ReqId Nat
  tokenIdsCpu : Nat → Nat → Token
  isTokenIds : Nat → Nat → Bool
  reqPromptEmbeds : Dict Nat (List (List Num))
  numTokensNoSpec : Nat → Nat
  numPromptTokens : Nat → Nat
  numComputedTokensCpu : Nat → Nat
  blockTable : List BlockTable
  temperatureCpu : Nat → Num
  greedyReqs : Finset ReqId
  randomReqs : Finset ReqId
  topPCpu : Nat → Num
  topPReqs : Finset ReqId
  topKCpu : Nat → Int
  topKReqs : Finset ReqId
  frequencyPenaltiesCpu : Nat → Num
  frequencyPenaltiesReqs : Finset ReqId
  presencePenaltiesCpu : Nat → Num
  presencePenaltiesReqs : Finset ReqId
  repetitionPenaltiesCpu : Nat → Num
  repetitionPenaltiesReqs : Finset ReqId
  numAcceptedTokensCpu : Nat → Nat
  requestLoraMapping : Nat → Nat
  loraIdToRequestIds : Dict Nat (Finset ReqId)
  loraIdToLoraRequest : Dict Nat LoRARequest
  generators : Dict Nat Address
  numLogprobs : Dict ReqId Int
  inProgressPromptLogprobsCpu : Dict ReqId Address
  batchUpdateBuilder : BatchUpdateBuilder Num
  hasAllowedTokenIds : Finset ReqId
  allowedTokenIdsMask : Option (Nat → Nat → Bool)
  allowedTokenIdsMaskCpu : Option (Nat → Nat → Bool)
  badWordsTokenIds : Dict Nat (List (List Token))
  reqOutputTokenIds : List (Option ListRef)
  logitsprocs : LogitsProcessorStates Num
  specTokenIds : List (List Token)
  samplingMetadata : SamplingMetadata
  prevReqIdToIndex : Option (Dict ReqId Nat)

namespace InputBatch
variable {Num : Type}

def init [Zero Num] [DecidableEq Num] (config : BatchConfig Num) : InputBatch Num where
  config
  reqIds := []
  reqIdToIndex := Dict.empty
  tokenIdsCpu := fun _ _ => 0
  isTokenIds := fun _ _ => false
  reqPromptEmbeds := Dict.empty
  numTokensNoSpec := fun _ => 0
  numPromptTokens := fun _ => 0
  numComputedTokensCpu := fun _ => 0
  blockTable := config.blockTables.map fun sizes => BlockTable.init sizes.1 sizes.2
  temperatureCpu := fun _ => config.unset
  greedyReqs := ∅
  randomReqs := ∅
  topPCpu := fun _ => config.unset
  topPReqs := ∅
  topKCpu := fun _ => 0
  topKReqs := ∅
  frequencyPenaltiesCpu := fun _ => config.unset
  frequencyPenaltiesReqs := ∅
  presencePenaltiesCpu := fun _ => config.unset
  presencePenaltiesReqs := ∅
  repetitionPenaltiesCpu := fun _ => config.unset
  repetitionPenaltiesReqs := ∅
  numAcceptedTokensCpu := fun _ => 1
  requestLoraMapping := fun _ => 0
  loraIdToRequestIds := Dict.empty
  loraIdToLoraRequest := Dict.empty
  generators := Dict.empty
  numLogprobs := Dict.empty
  inProgressPromptLogprobsCpu := Dict.empty
  batchUpdateBuilder := BatchUpdateBuilder.init
  hasAllowedTokenIds := ∅
  allowedTokenIdsMask := none
  allowedTokenIdsMaskCpu := none
  badWordsTokenIds := Dict.empty
  reqOutputTokenIds := []
  logitsprocs := ⟨MinTokensLogitsProcessor.init, LogitBiasLogitsProcessor.init,
    MinPLogitsProcessor.init⟩
  specTokenIds := List.replicate config.maxNumReqs []
  samplingMetadata := ⟨none⟩
  prevReqIdToIndex := none

def numReqs (batch : InputBatch Num) : Nat := batch.reqIdToIndex.keys.length

/-- The next empty index is filled first, else the request goes to the end. -/
def registerAddRequest (batch : InputBatch Num) (request : CachedRequestState Num) :
    Option (Nat × InputBatch Num) :=
  let popped := batch.batchUpdateBuilder.popRemoved
  let newReqIndex := popped.1.getD batch.numReqs
  if newReqIndex < batch.config.maxNumReqs then
    some (newReqIndex, { batch with
      batchUpdateBuilder := { popped.2 with
        batchChanged := true
        added := popped.2.added ++ [{
          index := newReqIndex
          params := request.samplingParams
          promptTokIds := request.promptTokenIds
          outputTokIds := request.outputTokenIds }] } })
  else none

def placeId (batch : InputBatch Num) (request : CachedRequestState Num) (reqIndex : Nat) :
    InputBatch Num :=
  if reqIndex = batch.reqIds.length then
    { batch with
      reqIds := batch.reqIds ++ [some request.reqId]
      reqOutputTokenIds := batch.reqOutputTokenIds ++ [some request.outputTokenIds]
      specTokenIds := batch.specTokenIds ++ [[]]
      reqIdToIndex := batch.reqIdToIndex.set request.reqId reqIndex }
  else
    { batch with
      reqIds := batch.reqIds.set reqIndex (some request.reqId)
      reqOutputTokenIds := batch.reqOutputTokenIds.set reqIndex (some request.outputTokenIds)
      specTokenIds := batch.specTokenIds.set reqIndex []
      reqIdToIndex := batch.reqIdToIndex.set request.reqId reqIndex }

/-- A request without prompt embeddings does not clear an entry that is already there. -/
def writeTokens (batch : InputBatch Num) (request : CachedRequestState Num) (reqIndex : Nat)
    (heap : Heap) : InputBatch Num :=
  let numPromptTokens := request.numPromptTokens
  let outputs := heap request.outputTokenIds
  let promptRow := writeAt (batch.tokenIdsCpu reqIndex) 0 (request.promptTokenIds.getD [])
  let isTokenRow := fillRange (batch.isTokenIds reqIndex) 0 numPromptTokens
    request.promptTokenIds.isSome
  { batch with
    numPromptTokens := Function.update batch.numPromptTokens reqIndex numPromptTokens
    tokenIdsCpu := Function.update batch.tokenIdsCpu reqIndex
      (writeAt promptRow numPromptTokens outputs)
    isTokenIds := Function.update batch.isTokenIds reqIndex
      (fillRange isTokenRow numPromptTokens (numPromptTokens + outputs.length) true)
    reqPromptEmbeds := setIfPresent batch.reqPromptEmbeds reqIndex request.promptEmbeds
    numTokensNoSpec := Function.update batch.numTokensNoSpec reqIndex (request.numTokens heap)
    numComputedTokensCpu := Function.update batch.numComputedTokensCpu reqIndex
      request.numComputedTokens }

/-- `if condition: ids.add(req_id)` -/
def insertIf (condition : Prop) [Decidable condition] (ids : Finset ReqId) (reqId : ReqId) :
    Finset ReqId :=
  if condition then insert reqId ids else ids

def effectiveTopK (config : BatchConfig Num) (params : SamplingParams Num) : Int :=
  if 0 < params.topK ∧ params.topK < config.vocabSize then params.topK else config.vocabSize

def effectiveLogprobs (config : BatchConfig Num) (logprobs : Int) : Int :=
  if logprobs = -1 then config.vocabSize else logprobs

section Sampling
variable [Zero Num] [One Num] [LT Num] [DecidableLT Num] [DecidableEq Num]

def effectiveTemperature (config : BatchConfig Num) (params : SamplingParams Num) : Num :=
  if params.samplingType = .greedy then config.float32 0 else config.float32 params.temperature

def writeSampling (batch : InputBatch Num) (request : CachedRequestState Num) (reqIndex : Nat) :
    InputBatch Num :=
  let params := request.samplingParams
  let reqId := request.reqId
  let float32 := batch.config.float32
  { batch with
    temperatureCpu := Function.update batch.temperatureCpu reqIndex
      (effectiveTemperature batch.config params)
    greedyReqs := insertIf (params.samplingType = .greedy) batch.greedyReqs reqId
    randomReqs := insertIf (params.samplingType ≠ .greedy) batch.randomReqs reqId
    topPCpu := Function.update batch.topPCpu reqIndex (float32 params.topP)
    topPReqs := insertIf (params.topP < 1) batch.topPReqs reqId
    topKCpu := Function.update batch.topKCpu reqIndex (effectiveTopK batch.config params)
    topKReqs := insertIf (0 < params.topK ∧ params.topK < batch.config.vocabSize)
      batch.topKReqs reqId
    frequencyPenaltiesCpu := Function.update batch.frequencyPenaltiesCpu reqIndex
      (float32 params.frequencyPenalty)
    frequencyPenaltiesReqs := insertIf (params.frequencyPenalty ≠ 0)
      batch.frequencyPenaltiesReqs reqId
    presencePenaltiesCpu := Function.update batch.presencePenaltiesCpu reqIndex
      (float32 params.presencePenalty)
    presencePenaltiesReqs := insertIf (params.presencePenalty ≠ 0)
      batch.presencePenaltiesReqs reqId
    repetitionPenaltiesCpu := Function.update batch.repetitionPenaltiesCpu reqIndex
      (float32 params.repetitionPenalty)
    repetitionPenaltiesReqs := insertIf (params.repetitionPenalty ≠ 1)
      batch.repetitionPenaltiesReqs reqId
    generators := setIfPresent batch.generators reqIndex request.generator
    numLogprobs := setIfPresent batch.numLogprobs reqId
      (params.logprobs.map (effectiveLogprobs batch.config))
    badWordsTokenIds := setIfPresent batch.badWordsTokenIds reqIndex
      (orNone params.badWordsTokenIds)
    numAcceptedTokensCpu := Function.update batch.numAcceptedTokensCpu reqIndex 1 }

end Sampling

/-- `mask[req_index] = True` and then False at the allowed tokens. -/
def allowedRow (allowed : List Nat) : Nat → Bool := fun token => decide (token ∉ allowed)

/-- The mask is allocated by the first request that needs it. -/
def writeAllowedTokens (batch : InputBatch Num) (request : CachedRequestState Num)
    (reqIndex : Nat) : Option (InputBatch Num) :=
  match orNone request.samplingParams.allowedTokenIds with
  | none => some batch
  | some allowed =>
    if allowed.all (· < batch.config.vocabSize) then
      let mask := batch.allowedTokenIdsMaskCpu.getD fun _ _ => false
      some { batch with
        hasAllowedTokenIds := insert request.reqId batch.hasAllowedTokenIds
        allowedTokenIdsMask := match batch.allowedTokenIdsMaskCpu with
          | none => some fun _ _ => false
          | some _ => batch.allowedTokenIdsMask
        allowedTokenIdsMaskCpu := some (Function.update mask reqIndex (allowedRow allowed)) }
    else none

def writeLora (batch : InputBatch Num) (request : CachedRequestState Num) (reqIndex : Nat) :
    InputBatch Num :=
  match request.loraRequest with
  | none => { batch with requestLoraMapping := Function.update batch.requestLoraMapping reqIndex 0 }
  | some lora =>
    let known := (batch.loraIdToRequestIds.get? lora.loraIntId).getD ∅
    { batch with
      requestLoraMapping := Function.update batch.requestLoraMapping reqIndex lora.loraIntId
      loraIdToRequestIds := batch.loraIdToRequestIds.set lora.loraIntId
        (insert request.reqId known)
      loraIdToLoraRequest := batch.loraIdToLoraRequest.set lora.loraIntId lora.toLoRARequest }

section Adding
variable [Zero Num] [One Num] [LT Num] [DecidableLT Num] [DecidableEq Num]

def addRequest (batch : InputBatch Num) (request : CachedRequestState Num) (heap : Heap) :
    Option (Nat × InputBatch Num) := do
  let (reqIndex, registered) ← batch.registerAddRequest request
  let placed := registered.placeId request reqIndex
  if request.numTokens heap ≤ placed.config.maxModelLen then
    let written := placed.writeTokens request reqIndex heap
    let blockTable ← addRow written.blockTable request.blockIds reqIndex
    let sampled := { written with blockTable }.writeSampling request reqIndex
    let masked ← sampled.writeAllowedTokens request reqIndex
    return (reqIndex, masked.writeLora request reqIndex)
  else none

end Adding

/-- Draft tokens are written behind the request's own tokens. -/
def updateReqSpecTokenIds (batch : InputBatch Num) (reqId : ReqId) (specTokenIds : List Token) :
    Option (InputBatch Num) := do
  let reqIndex ← batch.reqIdToIndex.get? reqId
  let startIndex := batch.numTokensNoSpec reqIndex
  if startIndex + specTokenIds.length ≤ batch.config.maxModelLen then
    return { batch with
      specTokenIds := batch.specTokenIds.set reqIndex specTokenIds
      tokenIdsCpu := Function.update batch.tokenIdsCpu reqIndex
        (writeAt (batch.tokenIdsCpu reqIndex) startIndex specTokenIds) }
  else none

/-- The request leaves the adapter's set, and an adapter without requests is forgotten. -/
def dropLora (batch : InputBatch Num) (reqId : ReqId) (reqIndex : Nat) :
    Option (InputBatch Num) :=
  let loraId := batch.requestLoraMapping reqIndex
  if loraId = 0 then some batch
  else do
    let loraReqIds ← batch.loraIdToRequestIds.get? loraId
    let remaining := loraReqIds.erase reqId
    let mapping := Function.update batch.requestLoraMapping reqIndex 0
    if remaining = ∅ then
      return { batch with
        requestLoraMapping := mapping
        loraIdToRequestIds := batch.loraIdToRequestIds.erase loraId
        loraIdToLoraRequest := batch.loraIdToLoraRequest.erase loraId }
    else
      return { batch with
        requestLoraMapping := mapping
        loraIdToRequestIds := batch.loraIdToRequestIds.set loraId remaining }

/-- What is forgotten by id or by index. The prompt embeddings are not among it. -/
def dropSampling (batch : InputBatch Num) (reqId : ReqId) (reqIndex : Nat) : InputBatch Num :=
  { batch with
    greedyReqs := batch.greedyReqs.erase reqId
    randomReqs := batch.randomReqs.erase reqId
    topPReqs := batch.topPReqs.erase reqId
    topKReqs := batch.topKReqs.erase reqId
    frequencyPenaltiesReqs := batch.frequencyPenaltiesReqs.erase reqId
    presencePenaltiesReqs := batch.presencePenaltiesReqs.erase reqId
    repetitionPenaltiesReqs := batch.repetitionPenaltiesReqs.erase reqId
    generators := batch.generators.erase reqIndex
    numLogprobs := batch.numLogprobs.erase reqId
    inProgressPromptLogprobsCpu := batch.inProgressPromptLogprobsCpu.erase reqId
    prevReqIdToIndex := batch.prevReqIdToIndex.map fun index => index.erase reqId
    hasAllowedTokenIds := batch.hasAllowedTokenIds.erase reqId
    allowedTokenIdsMaskCpu := batch.allowedTokenIdsMaskCpu.map fun mask =>
      Function.update mask reqIndex fun _ => false
    badWordsTokenIds := batch.badWordsTokenIds.erase reqIndex }

def removeRequest (batch : InputBatch Num) (reqId : ReqId) :
    Option (Option Nat × InputBatch Num) :=
  match batch.reqIdToIndex.get? reqId with
  | none => some (none, batch)
  | some reqIndex => do
      let builder ← batch.batchUpdateBuilder.removedAppend reqIndex
      let vacated := { batch with
        reqIdToIndex := batch.reqIdToIndex.erase reqId
        batchUpdateBuilder := builder
        reqIds := batch.reqIds.set reqIndex none
        reqOutputTokenIds := batch.reqOutputTokenIds.set reqIndex none
        specTokenIds := batch.specTokenIds.set reqIndex [] }
      let unadapted ← vacated.dropLora reqId reqIndex
      return (some reqIndex, unadapted.dropSampling reqId reqIndex)

/-- The value is stored, or the key popped when there is none. -/
def assignOrPop {Value : Type} (entries : Dict Nat Value) (key : Nat) (value : Option Value) :
    Dict Nat Value :=
  match value with
  | some present => entries.set key present
  | none => entries.erase key

/-- `swap_dict_values` -/
def swapDictValues {Value : Type} (entries : Dict Nat Value) (key1 key2 : Nat) : Dict Nat Value :=
  let v1 := entries.get? key1
  let v2 := entries.get? key2
  assignOrPop (assignOrPop entries key2 v1) key1 v2

/-- Rows of a tensor are views: the row read second has already been written. -/
def swapViews (mask : Nat → Nat → Bool) (i1 i2 : Nat) : Nat → Nat → Bool :=
  let first := Function.update mask i1 (mask i2)
  Function.update first i2 (first i1)

def swapList {Elem : Type} (list : List Elem) (i1 i2 : Nat) : Option (List Elem) := do
  let first ← list[i1]?
  let second ← list[i2]?
  return (list.set i1 second).set i2 first

/-- The arrays, tables and dictionaries that are kept by index. -/
def swapRows (batch : InputBatch Num) (i1 i2 : Nat) : InputBatch Num :=
  { batch with
    numTokensNoSpec := swapEntries batch.numTokensNoSpec i1 i2
    numPromptTokens := swapEntries batch.numPromptTokens i1 i2
    numComputedTokensCpu := swapEntries batch.numComputedTokensCpu i1 i2
    tokenIdsCpu := swapEntries batch.tokenIdsCpu i1 i2
    isTokenIds := swapEntries batch.isTokenIds i1 i2
    reqPromptEmbeds := swapDictValues batch.reqPromptEmbeds i1 i2
    blockTable := batch.blockTable.map fun table => table.swapRow i1 i2
    requestLoraMapping := swapEntries batch.requestLoraMapping i1 i2
    temperatureCpu := swapEntries batch.temperatureCpu i1 i2
    topPCpu := swapEntries batch.topPCpu i1 i2
    topKCpu := swapEntries batch.topKCpu i1 i2
    frequencyPenaltiesCpu := swapEntries batch.frequencyPenaltiesCpu i1 i2
    presencePenaltiesCpu := swapEntries batch.presencePenaltiesCpu i1 i2
    repetitionPenaltiesCpu := swapEntries batch.repetitionPenaltiesCpu i1 i2
    numAcceptedTokensCpu := swapEntries batch.numAcceptedTokensCpu i1 i2
    generators := swapDictValues batch.generators i1 i2
    badWordsTokenIds := swapDictValues batch.badWordsTokenIds i1 i2
    allowedTokenIdsMaskCpu := batch.allowedTokenIdsMaskCpu.map fun mask => swapViews mask i1 i2 }

def logMove (batch : InputBatch Num) (source target : Nat) (direct : MoveDirectionality) :
    InputBatch Num :=
  { batch with
    batchUpdateBuilder := { batch.batchUpdateBuilder with
      moved := batch.batchUpdateBuilder.moved ++ [⟨source, target, direct⟩] } }

def swapStates (batch : InputBatch Num) (i1 i2 : Nat) : Option (InputBatch Num) := do
  let oldIdI1 ← batch.reqIds[i1]?.join
  let oldIdI2 ← batch.reqIds[i2]?.join
  let reqIds ← swapList batch.reqIds i1 i2
  let reqOutputTokenIds ← swapList batch.reqOutputTokenIds i1 i2
  let specTokenIds ← swapList batch.specTokenIds i1 i2
  let index1 ← batch.reqIdToIndex.get? oldIdI1
  let index2 ← batch.reqIdToIndex.get? oldIdI2
  let renamed := { batch with
    reqIds
    reqOutputTokenIds
    specTokenIds
    reqIdToIndex := (batch.reqIdToIndex.set oldIdI1 index2).set oldIdI2 index1 }
  return (renamed.swapRows i1 i2).logMove i1 i2 .swap

/-- `if source in entries: entries[target] = entries.pop(source)` -/
def moveDictValue {Value : Type} (entries : Dict Nat Value) (source target : Nat) :
    Dict Nat Value :=
  match entries.get? source with
  | some value => (entries.erase source).set target value
  | none => entries

/-- Only the tokens in use are copied; the row at the source keeps what it held. -/
def moveRows (batch : InputBatch Num) (last empty : Nat) (numTokens : Nat) : InputBatch Num :=
  { batch with
    tokenIdsCpu := Function.update batch.tokenIdsCpu empty
      (copyPrefix (batch.tokenIdsCpu empty) (batch.tokenIdsCpu last) numTokens)
    isTokenIds := Function.update batch.isTokenIds empty
      (copyPrefix (batch.isTokenIds empty) (batch.isTokenIds last) numTokens)
    reqPromptEmbeds := moveDictValue batch.reqPromptEmbeds last empty
    numTokensNoSpec := Function.update batch.numTokensNoSpec empty (batch.numTokensNoSpec last)
    numPromptTokens := Function.update batch.numPromptTokens empty (batch.numPromptTokens last)
    numComputedTokensCpu := Function.update batch.numComputedTokensCpu empty
      (batch.numComputedTokensCpu last)
    blockTable := batch.blockTable.map fun table => table.moveRow last empty
    requestLoraMapping := Function.update batch.requestLoraMapping empty
      (batch.requestLoraMapping last)
    temperatureCpu := Function.update batch.temperatureCpu empty (batch.temperatureCpu last)
    topPCpu := Function.update batch.topPCpu empty (batch.topPCpu last)
    topKCpu := Function.update batch.topKCpu empty (batch.topKCpu last)
    frequencyPenaltiesCpu := Function.update batch.frequencyPenaltiesCpu empty
      (batch.frequencyPenaltiesCpu last)
    presencePenaltiesCpu := Function.update batch.presencePenaltiesCpu empty
      (batch.presencePenaltiesCpu last)
    repetitionPenaltiesCpu := Function.update batch.repetitionPenaltiesCpu empty
      (batch.repetitionPenaltiesCpu last)
    numAcceptedTokensCpu := Function.update batch.numAcceptedTokensCpu empty
      (batch.numAcceptedTokensCpu last)
    generators := moveDictValue batch.generators last empty
    allowedTokenIdsMaskCpu := batch.allowedTokenIdsMaskCpu.map fun mask =>
      Function.update mask empty (mask last)
    badWordsTokenIds := moveDictValue batch.badWordsTokenIds last empty }

/-- The body of the loop of `condense` once both indices are known. -/
def moveRequest (batch : InputBatch Num) (last empty : Nat) : Option (InputBatch Num) := do
  let reqId ← batch.reqIds[last]?.join
  let outputTokenIds ← batch.reqOutputTokenIds[last]?
  let specTokenIds ← batch.specTokenIds[last]?
  let numTokens := batch.numTokensNoSpec last + specTokenIds.length
  let renamed := { batch with
    reqIds := (batch.reqIds.set empty (some reqId)).set last none
    reqOutputTokenIds := (batch.reqOutputTokenIds.set empty outputTokenIds).set last none
    reqIdToIndex := batch.reqIdToIndex.set reqId empty
    specTokenIds := (batch.specTokenIds.set empty specTokenIds).set last [] }
  return (renamed.moveRows last empty numTokens).logMove last empty .unidirectional

/-- `while last_req_index in empty_req_indices: last_req_index -= 1` -/
def skipRemoved (removed : List Nat) : Nat → Nat
  | 0 => 0
  | last + 1 => if last + 1 ∈ removed then skipRemoved removed last else last + 1

/-- Every turn fills one empty index, so their number bounds the turns. -/
def condenseLoop : Nat → Nat → InputBatch Num → Option (InputBatch Num)
  | 0, _, batch => some batch
  | turns + 1, lastReqIndex, batch =>
    let (emptyReqIndices, sorted) := batch.batchUpdateBuilder.removed
    if emptyReqIndices.isEmpty then some { batch with batchUpdateBuilder := sorted }
    else
      let last := skipRemoved emptyReqIndices lastReqIndex
      match sorted.peekRemoved with
      | (none, _) => none
      | (some emptyIndex, peeked) =>
        if emptyIndex ≥ last then some { batch with batchUpdateBuilder := peeked }
        else do
          let popped := { batch with batchUpdateBuilder := peeked.popRemoved.2 }
          let moved ← popped.moveRequest last emptyIndex
          condenseLoop turns (last - 1) moved

def trim (batch : InputBatch Num) (numReqs : Nat) : InputBatch Num :=
  { batch with
    reqIds := batch.reqIds.take numReqs
    reqOutputTokenIds := batch.reqOutputTokenIds.take numReqs
    specTokenIds := batch.specTokenIds.take numReqs }

def condense (batch : InputBatch Num) : Option (InputBatch Num) :=
  let numReqs := batch.numReqs
  let (emptyReqIndices, sorted) := batch.batchUpdateBuilder.removed
  let read := { batch with batchUpdateBuilder := sorted }
  if emptyReqIndices.isEmpty then some read
  else if numReqs = 0 then
    some { read with reqIds := [], reqOutputTokenIds := [], specTokenIds := [] }
  else
    (condenseLoop emptyReqIndices.length (numReqs + emptyReqIndices.length - 1) read).map
      fun condensed => condensed.trim numReqs

/-- The mask is handed to the sampler as soon as one request has allowed tokens. -/
def makeSamplingMetadata (batch : InputBatch Num) : Option (InputBatch Num) :=
  if batch.hasAllowedTokenIds = ∅ then some { batch with samplingMetadata := ⟨none⟩ }
  else do
    let cpu ← batch.allowedTokenIdsMaskCpu
    let device ← batch.allowedTokenIdsMask
    let copied := fun row => if row < batch.numReqs then cpu row else device row
    return { batch with
      allowedTokenIdsMask := some copied
      samplingMetadata := ⟨some ((List.range batch.numReqs).map fun row =>
        (List.range batch.config.vocabSize).map (copied row))⟩ }

section Refreshing
variable [Zero Num] [DecidableEq Num]

def updateLogitsprocs (batch : InputBatch Num) (heap : Heap)
    (batchUpdate : Option (BatchUpdate Num)) : LogitsProcessorStates Num where
  minTokens := batch.logitsprocs.minTokens.updateState heap batchUpdate
  logitBias := batch.logitsprocs.logitBias.updateState batch.config.float32 batchUpdate
  minP := batch.logitsprocs.minP.updateState batch.config.float32 batchUpdate

def refreshMetadata (batch : InputBatch Num) (heap : Heap) : Option (InputBatch Num) :=
  let (batchUpdate, builder) := batch.batchUpdateBuilder.getAndReset batch.numReqs
  let processed := { batch with
    batchUpdateBuilder := builder
    logitsprocs := batch.updateLogitsprocs heap batchUpdate }
  match batchUpdate with
  | none => some processed
  | some _ => processed.makeSamplingMetadata

end Refreshing
end InputBatch

/-! One worker step: removals, additions, compaction, reordering, refresh. -/

inductive AddOp (Num : Type) where
  | addRequest (request : CachedRequestState Num)
  | updateReqSpecTokenIds (reqId : ReqId) (specTokenIds : List Token)

/-- The heap is what the output lists hold while the step runs. -/
structure WorkerStep (Num : Type) where
  heap : Heap
  removed : List ReqId
  added : List (AddOp Num)
  swaps : List (Nat × Nat)

namespace InputBatch
variable {Num : Type}

def removeAll (batch : InputBatch Num) (reqIds : List ReqId) : Option (InputBatch Num) :=
  reqIds.foldlM (fun batch reqId => (batch.removeRequest reqId).map Prod.snd) batch

def swapAll (batch : InputBatch Num) (swaps : List (Nat × Nat)) : Option (InputBatch Num) :=
  swaps.foldlM (fun batch (i1, i2) => batch.swapStates i1 i2) batch

variable [Zero Num] [One Num] [LT Num] [DecidableLT Num] [DecidableEq Num]

def applyAdd (heap : Heap) (batch : InputBatch Num) (op : AddOp Num) : Option (InputBatch Num) :=
  match op with
  | .addRequest request => (batch.addRequest request heap).map Prod.snd
  | .updateReqSpecTokenIds reqId specTokenIds => batch.updateReqSpecTokenIds reqId specTokenIds

def addAll (batch : InputBatch Num) (heap : Heap) (ops : List (AddOp Num)) :
    Option (InputBatch Num) :=
  ops.foldlM (applyAdd heap) batch

def workerStep (batch : InputBatch Num) (step : WorkerStep Num) : Option (InputBatch Num) := do
  let removed ← batch.removeAll step.removed
  let added ← removed.addAll step.heap step.added
  let condensed ← added.condense
  let swapped ← condensed.swapAll step.swaps
  swapped.refreshMetadata step.heap

def run (config : BatchConfig Num) (steps : List (WorkerStep Num)) : Option (InputBatch Num) :=
  steps.foldlM workerStep (init config)

end InputBatch
end VllmDcu.PersistentBatch

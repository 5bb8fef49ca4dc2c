import VllmDcu.Slots
import VllmDcu.PersistentBatch

/-! What the persistent batch is for: a table of slots, each with the request that
lives there. The four operations act on the table; the batch holds the table when
every array, list, set and dictionary shows the request of its slot. -/
namespace VllmDcu.BatchSlots
open Requests (Token ReqId)
open LogitsProcessors PersistentBatch Slots
variable {Num : Type}

/-- A request with the output tokens it was added with and its present draft tokens. -/
structure LiveRequest (Num : Type) where
  request : CachedRequestState Num
  outputs : List Token
  specTokenIds : List Token

namespace LiveRequest

def reqId (live : LiveRequest Num) : ReqId := live.request.reqId

def numTokens (live : LiveRequest Num) : Nat :=
  live.request.numPromptTokens + live.outputs.length

/-- A prompt given by embeddings only has no token ids. -/
def tokenAt (live : LiveRequest Num) (k : Nat) : Option Token :=
  if k < live.request.numPromptTokens then live.request.promptTokenIds.bind (·[k]?)
  else (live.outputs ++ live.specTokenIds)[k - live.request.numPromptTokens]?

def isTokenAt (live : LiveRequest Num) (k : Nat) : Bool :=
  if k < live.request.numPromptTokens then live.request.promptTokenIds.isSome else true

/-- New draft tokens for the request of that id. -/
def redraft (reqId : ReqId) (specTokenIds : List Token) (live : LiveRequest Num) :
    LiveRequest Num :=
  if live.reqId = reqId then { live with specTokenIds } else live

end LiveRequest

def adapterId (request : CachedRequestState Num) : Nat :=
  request.loraRequest.elim 0 fun lora => lora.loraIntId

abbrev Table (Num : Type) := List (Option (LiveRequest Num))

/-! The operations on the table. -/

def vacate (slots : Table Num) (reqId : ReqId) : Table Num :=
  slots.map fun slot => slot.filter fun live => live.reqId ≠ reqId

def applyAdd (heap : Heap) (slots : Table Num) (op : AddOp Num) : Table Num :=
  match op with
  | .addRequest request => place slots ⟨request, heap request.outputTokenIds, []⟩
  | .updateReqSpecTokenIds reqId specTokenIds =>
    slots.map (Option.map (LiveRequest.redraft reqId specTokenIds))

/-- The table once the removed requests have left and the new ones have come. -/
def settle (requests : List (LiveRequest Num)) (step : WorkerStep Num) : Table Num :=
  step.added.foldl (applyAdd step.heap) (step.removed.foldl vacate (requests.map some))

def reorder (requests : List (LiveRequest Num)) (swaps : List (Nat × Nat)) :
    List (LiveRequest Num) :=
  swaps.foldl (fun requests (i, j) => exchange requests i j) requests

def stepRequests (requests : List (LiveRequest Num)) (step : WorkerStep Num) :
    List (LiveRequest Num) :=
  reorder (closeGaps (settle requests step)) step.swaps

/-- No request is added while one of its id is in the batch. -/
def AddsFresh (heap : Heap) : Table Num → List (AddOp Num) → Prop
  | _, [] => True
  | slots, op :: rest =>
    (match op with
      | .addRequest request => request.reqId ∉ slots.reduceOption.map LiveRequest.reqId
      | .updateReqSpecTokenIds _ _ => True) ∧ AddsFresh heap (applyAdd heap slots op) rest

def StepFresh (requests : List (LiveRequest Num)) (step : WorkerStep Num) : Prop :=
  AddsFresh step.heap (step.removed.foldl vacate (requests.map some)) step.added

def runRequests (steps : List (WorkerStep Num)) : List (LiveRequest Num) :=
  steps.foldl stepRequests []

/-! What it means for the batch to hold a table. -/

def Holds (slots : Table Num) (request : CachedRequestState Num) : Prop :=
  ∃ i live, seat slots i = some live ∧ live.request = request

def IdSet (ids : Finset ReqId) (slots : Table Num) (wanted : CachedRequestState Num → Prop) :
    Prop :=
  ∀ reqId, reqId ∈ ids ↔ ∃ request, Holds slots request ∧ request.reqId = reqId ∧ wanted request

def IdMap {Value : Type} (entries : Dict ReqId Value) (slots : Table Num)
    (value : CachedRequestState Num → Option Value) : Prop :=
  ∀ reqId v, entries.get? reqId = some v ↔
    ∃ request, Holds slots request ∧ request.reqId = reqId ∧ value request = some v

def IndexMap {Value : Type} (entries : Dict Nat Value) (slots : Table Num)
    (value : CachedRequestState Num → Option Value) : Prop :=
  ∀ i, entries.get? i = (seat slots i).bind fun live => value live.request

/-- The first `numBlocksPerRow` entries of a row are the request's kernel blocks. -/
structure BlockRow (table : BlockTable) (i : Nat) (blockIds : List Nat) : Prop where
  count : table.numBlocksPerRow i =
    (BlockTable.mapToKernelBlocks blockIds table.blocksPerKvBlock).length
  blocks : ∀ k block, (BlockTable.mapToKernelBlocks blockIds table.blocksPerKvBlock)[k]? =
    some block → table.blockTable i k = block

def BlockRows : List BlockTable → Nat → List (List Nat) → Prop
  | [], _, _ => True
  | _ :: _, _, [] => False
  | table :: tables, i, blockIds :: rest => BlockRow table i blockIds ∧ BlockRows tables i rest

/-- The lists that are indexed by slot and the two directions of the id table. -/
structure Named (batch : InputBatch Num) (slots : Table Num) : Prop where
  reqIds : batch.reqIds = slots.map (Option.map LiveRequest.reqId)
  outputs : batch.reqOutputTokenIds = slots.map (Option.map fun live => live.request.outputTokenIds)
  room : slots.length ≤ batch.specTokenIds.length
  spec : ∀ i < batch.specTokenIds.length, batch.specTokenIds[i]? =
    some ((seat slots i).elim [] LiveRequest.specTokenIds)
  unique : (slots.reduceOption.map LiveRequest.reqId).Nodup
  index : ∀ reqId i, batch.reqIdToIndex.get? reqId = some i ↔
    ∃ live, seat slots i = some live ∧ live.reqId = reqId

section Rows
variable [Zero Num] [One Num] [LT Num] [DecidableLT Num] [DecidableEq Num]

/-- Every array shows at `i` what the request asks for. -/
structure Row (batch : InputBatch Num) (i : Nat) (live : LiveRequest Num) : Prop where
  tokens : ∀ k token, live.tokenAt k = some token → batch.tokenIdsCpu i k = token
  isToken : ∀ k < live.numTokens, batch.isTokenIds i k = live.isTokenAt k
  numTokens : batch.numTokensNoSpec i = live.numTokens
  numPrompt : batch.numPromptTokens i = live.request.numPromptTokens
  numComputed : batch.numComputedTokensCpu i = live.request.numComputedTokens
  blocks : BlockRows batch.blockTable i live.request.blockIds
  temperature : batch.temperatureCpu i =
    InputBatch.effectiveTemperature batch.config live.request.samplingParams
  topP : batch.topPCpu i = batch.config.float32 live.request.samplingParams.topP
  topK : batch.topKCpu i = InputBatch.effectiveTopK batch.config live.request.samplingParams
  frequency : batch.frequencyPenaltiesCpu i =
    batch.config.float32 live.request.samplingParams.frequencyPenalty
  presence : batch.presencePenaltiesCpu i =
    batch.config.float32 live.request.samplingParams.presencePenalty
  repetition : batch.repetitionPenaltiesCpu i =
    batch.config.float32 live.request.samplingParams.repetitionPenalty
  accepted : batch.numAcceptedTokensCpu i = 1
  adapter : batch.requestLoraMapping i = adapterId live.request

/-- The sets and dictionaries that are keyed by request id. -/
structure Registered (batch : InputBatch Num) (slots : Table Num) : Prop where
  greedy : IdSet batch.greedyReqs slots fun request =>
    request.samplingParams.samplingType = .greedy
  random : IdSet batch.randomReqs slots fun request =>
    request.samplingParams.samplingType ≠ .greedy
  topP : IdSet batch.topPReqs slots fun request => request.samplingParams.topP < 1
  topK : IdSet batch.topKReqs slots fun request =>
    0 < request.samplingParams.topK ∧ request.samplingParams.topK < batch.config.vocabSize
  frequency : IdSet batch.frequencyPenaltiesReqs slots fun request =>
    request.samplingParams.frequencyPenalty ≠ 0
  presence : IdSet batch.presencePenaltiesReqs slots fun request =>
    request.samplingParams.presencePenalty ≠ 0
  repetition : IdSet batch.repetitionPenaltiesReqs slots fun request =>
    request.samplingParams.repetitionPenalty ≠ 1
  allowed : IdSet batch.hasAllowedTokenIds slots fun request =>
    (orNone request.samplingParams.allowedTokenIds).isSome
  logprobs : IdMap batch.numLogprobs slots fun request =>
    request.samplingParams.logprobs.map (InputBatch.effectiveLogprobs batch.config)
  inProgress : ∀ reqId ∈ batch.inProgressPromptLogprobsCpu.keys,
    ∃ request, Holds slots request ∧ request.reqId = reqId

/-- Each adapter in use, and no other, has the set of its requests. -/
structure Adapted (batch : InputBatch Num) (slots : Table Num) : Prop where
  requests : ∀ loraId reqId, (∃ ids, batch.loraIdToRequestIds.get? loraId = some ids ∧ reqId ∈ ids) ↔
    ∃ request, Holds slots request ∧ request.reqId = reqId ∧ adapterId request = loraId ∧
      loraId ≠ 0
  used : ∀ loraId, batch.loraIdToRequestIds.get? loraId ≠ some ∅
  adapters : ∀ loraId, (batch.loraIdToLoraRequest.get? loraId).isSome =
    (batch.loraIdToRequestIds.get? loraId).isSome

structure Tracks (batch : InputBatch Num) (slots : Table Num) : Prop where
  named : Named batch slots
  rows : ∀ i live, seat slots i = some live → Row batch i live
  generators : IndexMap batch.generators slots fun request => request.generator
  badWords : IndexMap batch.badWordsTokenIds slots fun request =>
    orNone request.samplingParams.badWordsTokenIds
  registered : Registered batch slots
  adapted : Adapted batch slots

end Rows

/-- Between the removals and the compaction the builder lists the free slots. -/
structure Freed (builder : BatchUpdateBuilder Num) (slots : Table Num) : Prop where
  unique : builder.removedList.Nodup
  free : ∀ i, i ∈ builder.removedList ↔ slots[i]? = some none
  count : builder.removedList.length + occupied slots = slots.length
  sorted : builder.isRemovedSorted = true → builder.removedList.Pairwise (· > ·)

end VllmDcu.BatchSlots

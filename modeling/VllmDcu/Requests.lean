import Mathlib.Data.List.Basic
import Mathlib.Data.Int.Basic

/-! Requests as the engine core keeps them: token lists, stop checks, streaming
updates and the chain of block hashes. A block hash is a value of `Digest`, the
fixed-size output of the configured hash function; it is never empty, so the
truth test on a parent hash is the test for the first block. Token ids are
integers because draft lists are padded with -1. -/
namespace VllmDcu.Requests
open Option

abbrev Token := Int
abbrev ReqId := Nat

/-- Entry of the flat extra-key tuple. LoRA names, multimodal identifiers and
cache salts are plain strings there; only embedding digests are bytes. -/
inductive ExtraKey (Digest : Type) where
  | text (value : String)
  | bytes (value : Digest)
  deriving DecidableEq

structure PlaceholderRange where
  offset : Nat
  length : Nat
  isEmbed : Option (List Bool)
  deriving DecidableEq

def PlaceholderRange.getNumEmbeds (range : PlaceholderRange) : Nat :=
  match range.isEmbed with
  | none => range.length
  | some mask => mask.countP id

/-- `embeds_cumsum[index]`, with Python's reading of a negative index. -/
def cumsumAt (mask : List Bool) (index : Int) : Int :=
  let position := if index < 0 then index + mask.length else index
  ((mask.take (position.toNat + 1)).countP id : Nat)

def PlaceholderRange.getEmbedsIndicesInRange (range : PlaceholderRange)
    (startIdx endIdx : Int) : Int × Int :=
  match range.isEmbed with
  | none => (startIdx, endIdx)
  | some mask =>
    (if startIdx > 0 then cumsumAt mask (startIdx - 1) else 0, cumsumAt mask (endIdx - 1))

structure MultiModalFeatureSpec where
  identifier : String
  mmPosition : PlaceholderRange
  deriving DecidableEq

structure RepetitionDetectionParams where
  maxPatternSize : Nat
  minPatternSize : Nat
  minCount : Nat
  deriving DecidableEq

structure SamplingParams where
  maxTokens : Nat
  minTokens : Nat
  eosTokenId : Option Token
  stopTokenIds : List Token
  repetitionDetection : Option RepetitionDetectionParams
  skipReadingPrefixCache : Option Bool
  deriving DecidableEq

structure PoolingParams where
  skipReadingPrefixCache : Option Bool
  deriving DecidableEq

structure LoRARequest where
  loraName : String
  loraIntId : Nat
  deriving DecidableEq

/-- Only whether the grammar has been compiled is read by the scheduler. -/
structure StructuredOutputRequest where
  grammar : Bool
  deriving DecidableEq

inductive RequestStatus where
  | waiting
  | waitingForFsm
  | waitingForRemoteKvs
  | waitingForStreamingReq
  | running
  | preempted
  | finishedStopped
  | finishedLengthCapped
  | finishedAborted
  | finishedIgnored
  | finishedError
  | finishedRepetition
  deriving DecidableEq

/-- Anything after PREEMPTED is a finished status. -/
def RequestStatus.isFinished : RequestStatus → Bool
  | .waiting | .waitingForFsm | .waitingForRemoteKvs | .waitingForStreamingReq
  | .running | .preempted => false
  | _ => true

inductive StopReason where
  | token (id : Token)
  | text (reason : String)
  deriving DecidableEq

structure StreamingUpdate where
  mmFeatures : List MultiModalFeatureSpec
  promptTokenIds : Option (List Token)
  maxTokens : Nat
  arrivalTime : Int
  samplingParams : Option SamplingParams

/-- The prompt embeddings, seen through the sha256 digests of their row slices. -/
structure PromptEmbeds (Digest : Type) where
  length : Nat
  sliceDigest : Nat → Nat → Digest

/-- `get_request_block_hasher(block_size, caching_hash_fn)` with NONE_HASH. -/
structure BlockHasher (Digest : Type) where
  blockSize : Nat
  cachingHashFn : Digest × List Token × Option (List (ExtraKey Digest)) → Digest
  noneHash : Digest

structure Request (Digest : Type) where
  requestId : ReqId
  clientIndex : Nat
  priority : Int
  arrivalTime : Int
  samplingParams : Option SamplingParams
  poolingParams : Option PoolingParams
  loraRequest : Option LoRARequest
  structuredOutputRequest : Option StructuredOutputRequest
  status : RequestStatus
  stopReason : Option StopReason
  maxTokens : Nat
  promptTokenIds : Option (List Token)
  promptEmbeds : Option (PromptEmbeds Digest)
  numPromptTokens : Nat
  outputTokenIds : List Token
  allTokenIds : List Token
  numOutputPlaceholders : Int
  discardLatestAsyncTokens : Bool
  specTokenIds : List Token
  numComputedTokens : Int
  cacheSalt : Option String
  mmFeatures : List MultiModalFeatureSpec
  numCachedTokens : Int
  isPrefillChunk : Bool
  numPreemptions : Nat
  blockHashes : List Digest
  blockHasher : Option (BlockHasher Digest)
  skipReadingPrefixCache : Bool
  resumable : Bool
  streamingQueue : Option (List (Option StreamingUpdate))

variable {Digest : Type}

namespace Request

def numTokens (request : Request Digest) : Nat := request.allTokenIds.length

def numTokensWithSpec (request : Request Digest) : Nat :=
  request.allTokenIds.length + request.specTokenIds.length

def numOutputTokens (request : Request Digest) : Nat := request.outputTokenIds.length

def hasEncoderInputs (request : Request Digest) : Bool := !request.mmFeatures.isEmpty

def useStructuredOutput (request : Request Digest) : Bool :=
  request.structuredOutputRequest.isSome

def isFinished (request : Request Digest) : Bool := request.status.isFinished

def getNumEncoderEmbeds (request : Request Digest) (inputId : Nat) : Nat :=
  match request.mmFeatures[inputId]? with
  | none => 0
  | some feature => feature.mmPosition.getNumEmbeds

end Request

/-! Extra keys of a block. -/

/-- The loop of `_gen_mm_extra_hash_keys` over the features from `curr_mm_idx` on. -/
def mmKeysFrom (startTokenIdx endTokenIdx : Nat) :
    List MultiModalFeatureSpec → Nat → List String × Nat
  | [], currMmIdx => ([], currMmIdx)
  | feature :: rest, currMmIdx =>
    let offset := feature.mmPosition.offset
    let length := feature.mmPosition.length
    if endTokenIdx > offset then
      if startTokenIdx > offset + length then
        mmKeysFrom startTokenIdx endTokenIdx rest (currMmIdx + 1)
      else if endTokenIdx ≥ offset + length then
        let tail := mmKeysFrom startTokenIdx endTokenIdx rest (currMmIdx + 1)
        (feature.identifier :: tail.1, tail.2)
      else ([feature.identifier], currMmIdx)
    else ([], currMmIdx)

/-- A negative cursor counts from the last feature; callers pass -1 or a cursor
returned before, so the assertion on it holds. -/
def genMmExtraHashKeys (request : Request Digest) (startTokenIdx endTokenIdx : Nat)
    (startMmIdx : Int) : List String × Int :=
  match request.mmFeatures.getLast? with
  | none => ([], startMmIdx)
  | some last =>
    if last.mmPosition.offset + last.mmPosition.length < startTokenIdx then ([], startMmIdx)
    else
      let start := if startMmIdx < 0 then startMmIdx + request.mmFeatures.length else startMmIdx
      let keys := mmKeysFrom startTokenIdx endTokenIdx
        (request.mmFeatures.drop start.toNat) start.toNat
      (keys.1, keys.2)

def genLoraExtraHashKeys (request : Request Digest) : List String :=
  match request.loraRequest with
  | none => []
  | some lora => [lora.loraName]

def cacheSaltKeys (request : Request Digest) (startTokenIdx : Nat) : List String :=
  match request.cacheSalt with
  | none => []
  | some salt => if startTokenIdx = 0 ∧ salt ≠ "" then [salt] else []

def genPromptEmbedsExtraHashKeys (request : Request Digest) (startTokenIdx endTokenIdx : Nat) :
    List Digest :=
  match request.promptEmbeds with
  | none => []
  | some embeds => [embeds.sliceDigest startTokenIdx endTokenIdx]

def generateBlockHashExtraKeys (request : Request Digest) (startTokenIdx endTokenIdx : Nat)
    (startMmIdx : Int) : Option (List (ExtraKey Digest)) × Int :=
  let mm := genMmExtraHashKeys request startTokenIdx endTokenIdx startMmIdx
  let extraKeys :=
    (genLoraExtraHashKeys request ++ mm.1 ++ cacheSaltKeys request startTokenIdx).map .text ++
      (genPromptEmbedsExtraHashKeys request startTokenIdx endTokenIdx).map .bytes
  if extraKeys.isEmpty then (none, mm.2) else (some extraKeys, mm.2)

/-! The hash chain. -/

def hashBlockTokens (hasher : BlockHasher Digest) (parentBlockHash : Option Digest)
    (currBlockTokenIds : List Token) (extraKeys : Option (List (ExtraKey Digest))) : Digest :=
  hasher.cachingHashFn (parentBlockHash.getD hasher.noneHash, currBlockTokenIds, extraKeys)

/-- The `while True` of `request_block_hasher`; it ends when no full block is
left, which `fuel` blocks always reach. -/
def hashBlocksFrom (hasher : BlockHasher Digest) (request : Request Digest) :
    Nat → Nat → Option Digest → Int → List Digest
  | 0, _, _, _ => []
  | fuel + 1, startTokenIdx, prevBlockHashValue, currMmIdx =>
    let endTokenIdx := startTokenIdx + hasher.blockSize
    if endTokenIdx > request.numTokens then []
    else
      let extra := generateBlockHashExtraKeys request startTokenIdx endTokenIdx currMmIdx
      let blockTokens := (request.allTokenIds.drop startTokenIdx).take hasher.blockSize
      let blockHash := hashBlockTokens hasher prevBlockHashValue blockTokens extra.1
      blockHash :: hashBlocksFrom hasher request fuel endTokenIdx (some blockHash) extra.2

def requestBlockHasher (hasher : BlockHasher Digest) (request : Request Digest) : List Digest :=
  let startTokenIdx := request.blockHashes.length * hasher.blockSize
  hashBlocksFrom hasher request request.numTokens startTokenIdx request.blockHashes.getLast?
    (if startTokenIdx > 0 then -1 else 0)

namespace Request

/-- Without a hasher there is nothing to extend the hashes by. -/
def newBlockHashes (request : Request Digest) : List Digest :=
  match request.blockHasher with
  | none => []
  | some hasher => requestBlockHasher hasher request

def updateBlockHashes (request : Request Digest) : Request Digest :=
  { request with blockHashes := request.blockHashes ++ request.newBlockHashes }

def appendOutputTokenIds (request : Request Digest) (tokenIds : List Token) : Request Digest :=
  { request with
    outputTokenIds := request.outputTokenIds ++ tokenIds
    allTokenIds := request.allTokenIds ++ tokenIds }.updateBlockHashes

end Request

/-- The constructor arguments of `Request`. -/
structure RequestArgs (Digest : Type) where
  requestId : ReqId
  promptTokenIds : Option (List Token)
  samplingParams : Option SamplingParams
  poolingParams : Option PoolingParams
  clientIndex : Nat
  arrivalTime : Int
  promptEmbeds : Option (PromptEmbeds Digest)
  mmFeatures : List MultiModalFeatureSpec
  loraRequest : Option LoRARequest
  cacheSalt : Option String
  priority : Int
  structuredOutput : Bool
  blockHasher : Option (BlockHasher Digest)
  resumable : Bool

def lengthFromPromptTokenIdsOrEmbeds (args : RequestArgs Digest) : Nat :=
  match args.promptTokenIds, args.promptEmbeds with
  | some ids, _ => ids.length
  | none, some embeds => embeds.length
  | none, none => 0

def getSkipReadingPrefixCache (args : RequestArgs Digest) : Bool :=
  match args.samplingParams.bind SamplingParams.skipReadingPrefixCache with
  | some flag => flag
  | none => (args.poolingParams.bind PoolingParams.skipReadingPrefixCache).getD false

/-- The fields `Request.__init__` sets before the block hashes. -/
def Request.create (args : RequestArgs Digest) (maxTokens : Nat)
    (structuredOutput : Option StructuredOutputRequest) (status : RequestStatus) : Request Digest :=
  let numPromptTokens := lengthFromPromptTokenIdsOrEmbeds args
  { requestId := args.requestId
    clientIndex := args.clientIndex
    priority := args.priority
    arrivalTime := args.arrivalTime
    samplingParams := args.samplingParams
    poolingParams := args.poolingParams
    loraRequest := args.loraRequest
    structuredOutputRequest := structuredOutput
    status := status
    stopReason := none
    maxTokens := maxTokens
    promptTokenIds := args.promptTokenIds
    promptEmbeds := args.promptEmbeds
    numPromptTokens := numPromptTokens
    outputTokenIds := []
    allTokenIds := args.promptTokenIds.getD (List.replicate numPromptTokens 0)
    numOutputPlaceholders := 0
    discardLatestAsyncTokens := false
    specTokenIds := []
    numComputedTokens := 0
    cacheSalt := args.cacheSalt
    mmFeatures := args.mmFeatures
    numCachedTokens := -1
    isPrefillChunk := false
    numPreemptions := 0
    blockHashes := []
    blockHasher := args.blockHasher
    skipReadingPrefixCache := getSkipReadingPrefixCache args
    resumable := args.resumable
    streamingQueue := none }

/-- `Request.__init__`; it raises when neither kind of parameters is given. -/
def Request.init (args : RequestArgs Digest) : Option (Request Digest) :=
  match args.poolingParams, args.samplingParams with
  | some _, _ => some (Request.create args 1 none .waiting).updateBlockHashes
  | none, some sampling =>
    if args.structuredOutput then
      some (Request.create args sampling.maxTokens (some ⟨false⟩) .waitingForFsm).updateBlockHashes
    else some (Request.create args sampling.maxTokens none .waiting).updateBlockHashes
  | none, none => none

theorem init_cases {args : RequestArgs Digest} {request : Request Digest}
    (created : Request.init args = some request) :
    ∃ maxTokens structured status,
      request = (Request.create args maxTokens structured status).updateBlockHashes := by
  unfold Request.init at created
  split at created
  · exact ⟨_, _, _, (some.inj created).symm⟩
  · split at created
    · exact ⟨_, _, _, (some.inj created).symm⟩
    · exact ⟨_, _, _, (some.inj created).symm⟩
  · contradiction

/-! Stop checks. -/

/-- Entry `n` counts from the end of the output, as `token_ids[-(n + 1)]`. -/
def hasRepeatingPattern (tokenIds : List Token) (patternLen repetitionMinCount : Nat) : Bool :=
  let fromEnd := tokenIds.reverse
  (List.range patternLen).all fun n =>
    (List.range (repetitionMinCount - 1)).all fun m =>
      fromEnd[patternLen * (m + 1) + n]? == fromEnd[n]?

def repetitionFrom (tokenIds : List Token) (minCount : Nat) : List Nat → Bool
  | [] => false
  | patternLen :: rest =>
    if patternLen * minCount > tokenIds.length then false
    else if hasRepeatingPattern tokenIds patternLen minCount then true
    else repetitionFrom tokenIds minCount rest

def checkSequenceRepetition (tokenIds : List Token) (params : RepetitionDetectionParams) : Bool :=
  let minPatternSize := if params.minPatternSize = 0 then 1 else params.minPatternSize
  if params.maxPatternSize = 0 ∨ params.minCount < 2 ∨ minPatternSize > params.maxPatternSize then
    false
  else
    repetitionFrom tokenIds params.minCount
      (List.range' minPatternSize (params.maxPatternSize + 1 - minPatternSize))

/-- `check_stop`: the stop flag and the request with its new status. It is
called after a token was appended, for requests that sample. -/
def checkStop (request : Request Digest) (maxModelLen : Nat) : Option (Bool × Request Digest) :=
  match request.poolingParams, request.samplingParams, request.outputTokenIds.getLast? with
  | none, some sampling, last =>
    if request.numOutputTokens < sampling.minTokens then some (false, request)
    else
      match last with
      | none => none
      | some lastTokenId =>
        if some lastTokenId = sampling.eosTokenId then
          some (true, { request with status := .finishedStopped })
        else if lastTokenId ∈ sampling.stopTokenIds then
          some (true, { request with
            status := .finishedStopped, stopReason := some (.token lastTokenId) })
        else if request.numTokens ≥ maxModelLen ∨ request.numOutputTokens ≥ request.maxTokens then
          some (true, { request with status := .finishedLengthCapped })
        else
          match sampling.repetitionDetection with
          | none => some (false, request)
          | some params =>
            if checkSequenceRepetition request.outputTokenIds params then
              some (true, { request with
                status := .finishedRepetition
                stopReason := some (.text "repetition_detected") })
            else some (false, request)
  | _, _, _ => none

/-- A stop check changes nothing but the status, to a finished one, and the
stop reason. -/
theorem checkStop_cases (request checked : Request Digest) (maxModelLen : Nat) (stop : Bool)
    (result : checkStop request maxModelLen = some (stop, checked)) :
    (stop = false ∧ checked = request) ∨
      (stop = true ∧ ∃ status reason, status.isFinished = true ∧
        checked = { request with status := status, stopReason := reason }) := by
  unfold checkStop at result
  split at result
  · repeat' split at result
    all_goals obtain ⟨rfl, rfl⟩ := result
    all_goals
      first
        | exact Or.inl ⟨rfl, rfl⟩
        | exact Or.inr ⟨rfl, _, _, rfl, rfl⟩
  · contradiction

/-! Streaming sessions. -/

/-- The position a slice bound names in a list of the given length. -/
def sliceBound (length : Nat) (bound : Int) : Nat :=
  if bound < 0 then (bound + length).toNat else min bound.toNat length

def StreamingUpdate.fromRequest (request : Request Digest) : Option StreamingUpdate :=
  if request.resumable then
    some
      { mmFeatures := request.mmFeatures
        promptTokenIds := request.promptTokenIds
        maxTokens := request.maxTokens
        arrivalTime := request.arrivalTime
        samplingParams := request.samplingParams }
  else none

def shiftFeature (base : Nat) (feature : MultiModalFeatureSpec) : MultiModalFeatureSpec :=
  { feature with mmPosition :=
    { feature.mmPosition with offset := feature.mmPosition.offset + base } }

/-- The session with its tokens cut at `num_computed_tokens` and the new chunk
appended, before its block hashes are updated. -/
def Request.cutAndExtend (session : Request Digest) (promptTokenIds : List Token)
    (update : StreamingUpdate) : Request Digest :=
  let kept := session.allTokenIds.take (sliceBound session.numTokens session.numComputedTokens)
  let keptOutputTokens := kept.drop session.numPromptTokens
  let chunk := update.promptTokenIds.getD []
  { session with
    outputTokenIds := []
    mmFeatures := session.mmFeatures ++ update.mmFeatures.map (shiftFeature kept.length)
    allTokenIds := kept ++ chunk
    promptTokenIds := some (promptTokenIds ++ keptOutputTokens ++ chunk) }

/-- `_update_request_as_session` without the scheduler's counter. -/
def Request.updateAsSession (session : Request Digest) (update : StreamingUpdate) :
    Option (Request Digest) :=
  match session.promptTokenIds with
  | none => none
  | some promptTokenIds =>
    let extended := (session.cutAndExtend promptTokenIds update).updateBlockHashes
    some
      { extended with
        numPromptTokens := (extended.promptTokenIds.getD []).length
        arrivalTime := update.arrivalTime
        samplingParams := update.samplingParams
        status := .waiting }

/-- What `_handle_stopped_request` does to the request: whether it is finished,
and otherwise the request as it goes back to a queue. -/
def Request.handleStopped (request : Request Digest) : Option (Bool × Request Digest) :=
  if !request.resumable then some (true, request)
  else
    match request.streamingQueue with
    | some (update :: rest) =>
      let taken := { request with streamingQueue := some rest }
      match update with
      | none => some (true, taken)
      | some update => (taken.updateAsSession update).map fun session => (false, session)
    | _ => some (false, { request with status := .waitingForStreamingReq })

end VllmDcu.Requests

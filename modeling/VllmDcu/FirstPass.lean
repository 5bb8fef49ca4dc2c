import VllmDcu.DraftInputs

/-! The first pass of the drafter: what its buffers hold, and how the model runner gets there from a step of
the target model. -/
namespace VllmDcu.FirstPass
open RaggedArrays AttentionMetadata DraftInputs
open DraftSteps (paddingSlotId)

variable {Hidden : Type}

/-- The configuration of a `SpecDecodeBaseProposer` and its buffers. -/
structure Proposer (Hidden : Type) where
  passHiddenStatesToModel : Bool
  parallelDrafting : Bool
  numSpeculativeTokens : Nat
  parallelDraftingTokenId : Int
  parallelDraftingHiddenState : Hidden
  blockSize : Nat
  maxModelLen : Nat
  inputIds : List Int
  positions : List Nat
  hiddenStates : List Hidden
  isRejectedTokenMask : List Bool
  isMaskedTokenMask : List Bool

/-- What the drafter takes over from the target model, token by token. -/
structure Target (Hidden : Type) where
  tokenIds : List Int
  positions : List Nat
  hiddenStates : List Hidden

/-- What `set_inputs_first_pass` returns, with the buffers. -/
structure Pass (Hidden : Type) where
  proposer : Proposer Hidden
  numTokens : Nat
  tokenIndicesToSample : List Int
  common : CommonAttentionMetadata

/-! The kernel that copies the inputs into wider rows. -/

/-- The arguments of `copy_and_expand_eagle_inputs_kernel`. -/
structure ExpandArgs where
  targetTokenIds : List Int
  targetPositions : List Nat
  nextTokenIds : List Int
  queryStartLoc : List Int
  queryEndLoc : List Int
  paddingTokenId : Int
  parallelDraftingTokenId : Int
  totalInputTokens : Int
  numPaddingSlotsPerRequest : Nat
  shiftInputIds : Bool
  blockSizeTokens : Nat

/-- What one lane of a program stores, each part under its mask. -/
structure Lane where
  inBounds : Bool
  outIdx : Int
  tokenId : Int
  position : Nat
  isRejected : Bool
  isMasked : Bool
  /-- where `out_new_token_indices` gets `outIdx` -/
  newTokenIdx : Option Int
  /-- where `out_hidden_state_mapping` gets `outIdx` -/
  sourceIdx : Option Int

def expandLane (args : ExpandArgs) (requestIdx : Nat)
    (queryStartLoc nextQueryStartLoc queryEndLoc : Int) (startPos : Nat) (bonusToken : Int) (j : Nat) :
    Lane :=
  let slots : Int := args.numPaddingSlotsPerRequest
  let numValidTokens :=
    if args.shiftInputIds then queryEndLoc - queryStartLoc else queryEndLoc - queryStartLoc + 1
  let inputOffset : Int := if args.shiftInputIds then 1 else 0
  let outputStart :=
    if args.shiftInputIds then queryStartLoc + requestIdx * (slots - 1)
    else queryStartLoc + requestIdx * slots
  let numRejected := nextQueryStartLoc - queryEndLoc - 1
  let totalOutputTokens := numValidTokens + slots + numRejected
  let inBounds : Bool := j < totalOutputTokens
  let isValidRegion : Bool := j < numValidTokens
  let isBonusRegion : Bool := j = numValidTokens
  let isParallelDraftRegion : Bool := j > numValidTokens ∧ j < numValidTokens + slots
  let isRejectedRegion : Bool := j ≥ numValidTokens + slots
  let outIdx := outputStart + j
  let inIdxClamped := min (queryStartLoc + inputOffset + j) (args.totalInputTokens - 1)
  let tokenId :=
    if isValidRegion ∧ inBounds then args.targetTokenIds[inIdxClamped.toNat]?.getD 0 else 0
  let tokenId := if isBonusRegion then bonusToken else tokenId
  let tokenId := if isParallelDraftRegion then args.parallelDraftingTokenId else tokenId
  let tokenId := if isRejectedRegion then args.paddingTokenId else tokenId
  let isNewTokenRegion : Bool := j ≥ numValidTokens ∧ j < numValidTokens + slots
  { inBounds := inBounds
    outIdx := outIdx
    tokenId := tokenId
    position := if isRejectedRegion then 0 else startPos + j
    isRejected := isRejectedRegion && inBounds
    isMasked := isParallelDraftRegion && inBounds
    newTokenIdx :=
      if isNewTokenRegion ∧ inBounds then some (requestIdx * slots + (j - numValidTokens)) else none
    sourceIdx :=
      if args.shiftInputIds ∧ j < nextQueryStartLoc - queryStartLoc then some (queryStartLoc + j)
      else none }

/-- One program: the lanes of a block of one request. -/
def expandProgram (args : ExpandArgs) (requestIdx tokenBatchIdx : Nat) : Option (List Lane) := do
  let queryStartLoc ← args.queryStartLoc[requestIdx]?
  let nextQueryStartLoc ← args.queryStartLoc[requestIdx + 1]?
  let queryEndLoc ← args.queryEndLoc[requestIdx]?
  let startPos ← args.targetPositions[queryStartLoc.toNat]?
  let bonusToken ← args.nextTokenIds[requestIdx]?
  some ((List.range' (tokenBatchIdx * args.blockSizeTokens) args.blockSizeTokens).map
    (expandLane args requestIdx queryStartLoc nextQueryStartLoc queryEndLoc startPos bonusToken))

/-- The launch over a grid of requests and blocks. -/
def expandLaunch (args : ExpandArgs) (batchSize numBlocks : Nat) : Option (List Lane) :=
  ((List.range batchSize).mapM fun requestIdx =>
    ((List.range numBlocks).mapM (expandProgram args requestIdx)).map List.flatten).map List.flatten

/-- `compute_new_slot_mapping` -/
def computeNewSlotMapping (common : CommonAttentionMetadata) (newPositions : List Nat)
    (isRejectedTokenMask : List Bool) (blockSize numNewTokens maxModelLen : Nat) : Option (List Int) := do
  let nBlocksPerReq := (common.blockTable.head?.map List.length).getD 0
  let lengths ← (common.queryLens.map fun (len : Int) => len + numNewTokens).mapM Int.toNat?
  let reqIndices := repeats (List.range common.blockTable.length) lengths
  (reqIndices.zip (newPositions.zip isRejectedTokenMask)).mapM fun entry =>
    let clampedPosition := min entry.2.1 (maxModelLen - 1)
    common.blockTable.flatten[entry.1 * nBlocksPerReq + clampedPosition / blockSize]?.map fun block =>
      if entry.2.2 then paddingSlotId
      else if entry.2.1 ≥ maxModelLen then paddingSlotId
      else (block * blockSize + clampedPosition % blockSize : Nat)

/-- `extend_all_queries_by_N` -/
def extendAllQueriesByN (common : CommonAttentionMetadata) (n : Nat) (newSlotMapping : List Int) :
    CommonAttentionMetadata :=
  { common with
    queryStartLoc := common.queryStartLoc.mapIdx fun i start => start + n * i
    seqLens := common.seqLens.map fun len => len + n
    numActualTokens := common.numActualTokens + common.seqLens.length * n
    maxQueryLen := common.maxQueryLen + n
    maxSeqLen := common.maxSeqLen + n
    slotMapping := newSlotMapping }

namespace Proposer
variable (self : Proposer Hidden)

/-- The buffers hold a pass of that many tokens. -/
def Fits (numTokens : Nat) : Prop :=
  numTokens ≤ self.inputIds.length ∧ numTokens ≤ self.positions.length ∧
    numTokens ≤ self.hiddenStates.length ∧ numTokens ≤ self.isRejectedTokenMask.length ∧
      numTokens ≤ self.isMaskedTokenMask.length

def extraSlotsPerRequest : Nat := if self.parallelDrafting then self.numSpeculativeTokens else 1

def netNumNewSlotsPerRequest : Nat :=
  self.extraSlotsPerRequest - if self.passHiddenStatesToModel then 1 else 0

def needsExtraInputSlots : Bool := self.netNumNewSlotsPerRequest > 0

/-- `set_inputs_first_pass` without extra slots: the tokens move one place to the front and the next tokens
come in. -/
def rotateInputs (target : Target Hidden) (nextTokenIds : List Int)
    (tokenIndicesToSample : Option (List Int)) (common : CommonAttentionMetadata) :
    Option (Pass Hidden) := do
  let tokenIndicesToSample := tokenIndicesToSample.getD (common.queryStartLoc.tail.map fun loc => loc - 1)
  let inputIds ← putAt (setFront self.inputIds target.tokenIds.tail) tokenIndicesToSample nextTokenIds
  let proposer := { self with
    inputIds := inputIds
    positions := setFront self.positions target.positions
    hiddenStates := setFront self.hiddenStates target.hiddenStates }
  some ⟨proposer, target.tokenIds.length, tokenIndicesToSample, common⟩

/-- The arguments the kernel is launched with, the batch size and the number of blocks. -/
def expandArgs (target : Target Hidden) (nextTokenIds : List Int) (common : CommonAttentionMetadata)
    (numRejectedTokens : Option (List Int)) : ExpandArgs × Nat × Nat :=
  let maxNumTokensPerRequest := common.maxQueryLen.toNat + self.netNumNewSlotsPerRequest
  let blockSizeTokens := min 256 (nextPowerOf2 maxNumTokensPerRequest)
  let queryEndLoc := common.queryStartLoc.tail.map fun loc => loc - 1
  ({ targetTokenIds := target.tokenIds
     targetPositions := target.positions
     nextTokenIds := nextTokenIds
     queryStartLoc := common.queryStartLoc
     queryEndLoc := numRejectedTokens.elim queryEndLoc
       (List.zipWith (fun loc rejected => loc - rejected) queryEndLoc)
     paddingTokenId := 0
     parallelDraftingTokenId := self.parallelDraftingTokenId
     totalInputTokens := target.tokenIds.length
     numPaddingSlotsPerRequest := self.extraSlotsPerRequest
     shiftInputIds := self.passHiddenStatesToModel
     blockSizeTokens := blockSizeTokens },
    common.seqLens.length, (maxNumTokensPerRequest + blockSizeTokens - 1) / blockSizeTokens)

/-- The hidden states at the places their tokens got, and the drafted ones' own state. -/
def expandHiddenStates (target : Target Hidden) (lanes : List Lane) (totalNumOutputTokens : Nat)
    (isMaskedTokenMask : List Bool) : Option (List Hidden) := do
  -- `torch.empty`: every entry is stored before it is read
  let mapping ← putAt (List.replicate target.tokenIds.length 0)
    (lanes.filterMap Lane.sourceIdx)
    ((lanes.filter fun lane => lane.sourceIdx.isSome).map Lane.outIdx)
  let hiddenStates ← putAt self.hiddenStates mapping target.hiddenStates
  some (setFront hiddenStates (List.zipWith
    (fun masked state => if masked then self.parallelDraftingHiddenState else state)
    (isMaskedTokenMask.take totalNumOutputTokens) hiddenStates))

/-- `set_inputs_first_pass` with extra slots. -/
def expandInputs (target : Target Hidden) (nextTokenIds : List Int) (common : CommonAttentionMetadata)
    (numRejectedTokens : Option (List Int)) : Option (Pass Hidden) := do
  let batchSize := common.seqLens.length
  let totalNumOutputTokens := target.tokenIds.length + self.netNumNewSlotsPerRequest * batchSize
  let (args, grid) := self.expandArgs target nextTokenIds common numRejectedTokens
  let lanes ← expandLaunch args grid.1 grid.2
  let stored := lanes.filter Lane.inBounds
  let outputs := stored.map Lane.outIdx
  let inputIds ← putAt self.inputIds outputs (stored.map Lane.tokenId)
  let positions ← putAt self.positions outputs (stored.map Lane.position)
  let isRejected ← putAt self.isRejectedTokenMask outputs (stored.map Lane.isRejected)
  let isMasked ← putAt self.isMaskedTokenMask outputs (stored.map Lane.isMasked)
  let tokenIndicesToSample ← putAt (List.replicate (batchSize * self.extraSlotsPerRequest) 0)
    (lanes.filterMap Lane.newTokenIdx) ((lanes.filter fun lane => lane.newTokenIdx.isSome).map Lane.outIdx)
  let hiddenStates ←
    if self.passHiddenStatesToModel then
      self.expandHiddenStates target lanes totalNumOutputTokens isMasked
    else some self.hiddenStates
  let newSlotMapping ← computeNewSlotMapping common (positions.take totalNumOutputTokens)
    (isRejected.take totalNumOutputTokens) self.blockSize self.netNumNewSlotsPerRequest self.maxModelLen
  let proposer := { self with
    inputIds := inputIds
    positions := positions
    hiddenStates := hiddenStates
    isRejectedTokenMask := isRejected
    isMaskedTokenMask := isMasked }
  some ⟨proposer, totalNumOutputTokens, tokenIndicesToSample,
    extendAllQueriesByN common self.netNumNewSlotsPerRequest newSlotMapping⟩

def setInputsFirstPass (target : Target Hidden) (nextTokenIds : List Int)
    (tokenIndicesToSample : Option (List Int)) (common : CommonAttentionMetadata)
    (numRejectedTokens : Option (List Int)) : Option (Pass Hidden) :=
  if self.needsExtraInputSlots then self.expandInputs target nextTokenIds common numRejectedTokens
  else self.rotateInputs target nextTokenIds tokenIndicesToSample common

end Proposer
end VllmDcu.FirstPass

import VllmDcu.FirstPass

/-! Drafting from a padded batch against drafting from the tokens that were not rejected: how the model
runner prepares either one, and what each request gets. -/
namespace VllmDcu.PaddedDrafting
open RaggedArrays TensorRows AttentionMetadata DraftInputs FirstPass

variable {Hidden : Type}

/-- A step of the target model, by request and token. -/
structure Batch (Hidden : Type) where
  vocabSize : Int
  numReqs : Nat
  request : Nat → CachedRequestState
  /-- `num_scheduled_tokens` -/
  queryLen : Nat → Nat
  inputId : Nat → Nat → Int
  position : Nat → Nat → Nat
  slot : Nat → Nat → Int
  hiddenState : Nat → Nat → Hidden
  numBlocks : Nat
  block : Nat → Nat → Nat
  numDraftTokens : Nat → Nat
  maxGenLen : Nat
  sampled : Nat → Nat → Int

namespace Batch
variable (batch : Batch Hidden)

def seqLen (i : Nat) : Nat := (batch.request i).numComputedTokens + batch.queryLen i

/-- `discard_request_mask`: a partial prefill. -/
def discarded (i : Nat) : Bool := batch.seqLen i < (batch.request i).numTokens

def target : Target Hidden where
  tokenIds := ragged batch.numReqs batch.queryLen batch.inputId
  positions := ragged batch.numReqs batch.queryLen batch.position
  hiddenStates := ragged batch.numReqs batch.queryLen batch.hiddenState

def common : CommonAttentionMetadata where
  queryStartLoc := 0 :: cumsum (counts batch.numReqs batch.queryLen)
  seqLens := counts batch.numReqs batch.seqLen
  numReqs := batch.numReqs
  numActualTokens := rowStart batch.queryLen batch.numReqs
  maxQueryLen := (counts batch.numReqs batch.queryLen).max?.getD 0
  maxSeqLen := (counts batch.numReqs batch.seqLen).max?.getD 0
  blockTable := column batch.numReqs fun i => column batch.numBlocks (batch.block i)
  slotMapping := ragged batch.numReqs batch.queryLen batch.slot
  causal := true
  givenComputedTokens := none

/-- There is none in a step without draft tokens. -/
def specDecodeMetadata : Option SpecDecodeMetadata :=
  let numDraftTokens := counts batch.numReqs batch.numDraftTokens
  if ∀ i < batch.numReqs, batch.numDraftTokens i = 0 then none
  else some ⟨numDraftTokens, cumsum numDraftTokens⟩

/-- The row of `sampled_token_ids`. -/
def sampledRow (i : Nat) : List Int := column batch.maxGenLen (batch.sampled i)

/-- The sampled tokens on the CPU; `RejectionSampler.parse_output` when drafts were scheduled. -/
def validSampledTokenIds : List (List Int) :=
  column batch.numReqs fun i =>
    if batch.discarded i then []
    else if batch.maxGenLen = 1 then batch.sampledRow i
    else (batch.sampledRow i).filter (isValid batch.vocabSize)

/-! What becomes of each request. -/

/-- The accepted tokens and the one that was sampled after them. -/
def validTokens (i : Nat) : List Int :=
  if batch.discarded i then [] else (batch.sampledRow i).filter (isValid batch.vocabSize)

def numRejected (i : Nat) : Nat :=
  if 0 < batch.numDraftTokens i then batch.numDraftTokens i + 1 - (batch.validTokens i).length else 0

/-- The tokens of a request that were not rejected. -/
def kept (i : Nat) : Nat := batch.queryLen i - batch.numRejected i

/-- The token of the prompt that a partial prefill goes on with. -/
def backupToken (i : Nat) : Option Int := (batch.request i).getTokenId (batch.seqLen i)

/-- The token that follows the last accepted place. -/
def nextToken (i : Nat) : Int :=
  (batch.validTokens i).getLast?.getD ((batch.backupToken i).getD 0)

/-- What the scheduler and the sampler promise: a request with drafts is no partial prefill, its drafts are
among its scheduled tokens, and one token is sampled after those that were accepted. -/
structure Proper : Prop where
  nonempty : 0 < batch.numReqs
  scheduled : ∀ i < batch.numReqs, 0 < batch.queryLen i
  drafted : ∀ i < batch.numReqs, 0 < batch.numDraftTokens i →
    batch.numDraftTokens i < batch.queryLen i ∧ batch.validTokens i ≠ [] ∧
      (batch.validTokens i).length ≤ batch.numDraftTokens i + 1
  inVocabulary : batch.maxGenLen = 1 → ∀ i < batch.numReqs, isValid batch.vocabSize (batch.sampled i 0)

end Batch

/-! The model runner's `propose_draft_token_ids`. -/

def takeTarget (target : Target Hidden) (numTokens : Nat) : Target Hidden :=
  ⟨target.tokenIds.take numTokens, target.positions.take numTokens, target.hiddenStates.take numTokens⟩

def selectTarget (target : Target Hidden) (tokenIndices : List Int) : Option (Target Hidden) := do
  let tokenIds ← takeAt target.tokenIds tokenIndices
  let positions ← takeAt target.positions tokenIndices
  let hiddenStates ← takeAt target.hiddenStates tokenIndices
  some ⟨tokenIds, positions, hiddenStates⟩

namespace Batch
variable (batch : Batch Hidden)

/-- The next tokens and the number of valid ones, from the tensors of the sampler. -/
def paddedTokens : Option (List Int × List Int) :=
  prepareNextTokenIdsPadded batch.vocabSize batch.common (column batch.numReqs batch.sampledRow)
    (column batch.numReqs batch.request) (column batch.numReqs batch.discarded)

/-- The next tokens on the CPU, after the bookkeeping. -/
def cpuTokens : Option (List Int) :=
  prepareNextTokenIdsCpu batch.validSampledTokenIds
    (List.zipWith CachedRequestState.extend (column batch.numReqs batch.request) batch.validSampledTokenIds)
    (column batch.numReqs batch.queryLen)

end Batch

/-- The arguments of the kernel with the next tokens, its grid. -/
def launch (self : Proposer Hidden) (batch : Batch Hidden) (rejected : Option (List Int)) :
    ExpandArgs × Nat × Nat :=
  self.expandArgs batch.target (column batch.numReqs batch.nextToken) batch.common rejected

/-- With padding: the first pass and `num_rejected_tokens_gpu`. -/
def paddedPass (self : Proposer Hidden) (batch : Batch Hidden) :
    Option (Pass Hidden × Option (List Int)) := do
  let next ← batch.paddedTokens
  match batch.specDecodeMetadata with
  | none =>
    let pass ← self.setInputsFirstPass (takeTarget batch.target batch.common.numActualTokens.toNat)
      next.1 none batch.common none
    some (pass, none)
  | some spec =>
    let inputs ← prepareInputsPadded batch.common spec next.2
    let pass ← self.setInputsFirstPass (takeTarget batch.target inputs.1.numActualTokens.toNat)
      next.1 (some inputs.2.1) inputs.1 (some inputs.2.2)
    some (pass, some inputs.2.2)

/-- With `disable_padded_drafter_batch`. -/
def unpaddedPass (self : Proposer Hidden) (batch : Batch Hidden) : Option (Pass Hidden) := do
  let next ← batch.cpuTokens
  match batch.specDecodeMetadata with
  | none =>
    self.setInputsFirstPass (takeTarget batch.target batch.common.numActualTokens.toNat) next none
      batch.common none
  | some spec =>
    let inputs ← prepareInputs batch.common batch.validSampledTokenIds spec.numDraftTokens
    let target ← selectTarget batch.target inputs.2
    self.setInputsFirstPass target next none inputs.1 none

/-- The rows that enter the later draft steps. -/
def laterRows (pass : Pass Hidden) (numRejectedTokens : Option (List Int)) :
    Option (List DraftSteps.Row) := do
  let positions ← takeAt pass.proposer.positions pass.tokenIndicesToSample
  let rows := (positions.zip (pass.common.seqLens.zip pass.common.blockTable)).map
    fun (entry : Nat × Int × List Nat) => (⟨entry.1, entry.2.1, entry.2.2⟩ : DraftSteps.Row)
  some (DraftSteps.withoutRejected rows numRejectedTokens)

/-- The input id, position, slot and source hidden state at an index of the first pass. -/
structure Input (Hidden : Type) where
  tokenId : Option Int
  position : Option Nat
  slot : Option Int
  hiddenState : Option Hidden

def inputAt (pass : Pass Hidden) (index : Nat) : Input Hidden :=
  ⟨pass.proposer.inputIds[index]?, pass.proposer.positions[index]?, pass.common.slotMapping[index]?,
    pass.proposer.hiddenStates[index]?⟩

/-- The inputs of a token that was not rejected. -/
def Batch.input (batch : Batch Hidden) (i j : Nat) : Input Hidden where
  tokenId := some (if j + 1 = batch.kept i then batch.nextToken i
    else batch.inputId i (j + 1))
  position := some (batch.position i j)
  slot := some (batch.slot i j)
  hiddenState := some (batch.hiddenState i j)

/-- A pass that has `count i` tokens of each request draws every one on its own inputs, samples from its last
kept token and goes on from there. -/
structure Prepared (batch : Batch Hidden) (count : Nat → Nat) (pass : Pass Hidden)
    (numRejectedTokens : Option (List Int)) : Prop where
  inputs : ∀ i < batch.numReqs, ∀ j < batch.kept i, inputAt pass (rowStart count i + j) = batch.input i j
  samples : ∀ i < batch.numReqs, 0 < batch.kept i ∧
    pass.tokenIndicesToSample[i]? = some ((rowStart count i + (batch.kept i - 1) : Nat) : Int)
  later : laterRows pass numRejectedTokens = some (column batch.numReqs fun i =>
    ⟨batch.position i (batch.kept i - 1), batch.seqLen i - batch.numRejected i,
      column batch.numBlocks (batch.block i)⟩)

end VllmDcu.PaddedDrafting

import VllmDcu.StructuredOutput
import VllmDcu.Dict

/-! The bitmask of a step: filled for the structured output requests in the scheduler's
order, applied to the logits in the worker's order. -/
namespace VllmDcu.GrammarBitmask
open Requests (Token ReqId)
open StructuredOutput StructuredOutputGrammar

structure SchedulerOutput where
  numScheduledTokens : Dict ReqId Nat
  scheduledSpecDecodeTokens : Dict ReqId (List Token)
  hasStructuredOutputRequests : Bool

structure GrammarOutput where
  structuredOutputRequestIds : List ReqId
  grammarBitmask : List Row

variable {Grammar : Type} [StructuredOutputGrammar Grammar]

abbrev Requests (Grammar : Type) := Dict ReqId (Request Grammar)

/-! Filling. -/

/-- The test `apply_bitmask and not grammar.is_terminated()`. -/
def applies (applyBitmask : Bool) (grammar : Grammar) : Bool × Grammar :=
  if applyBitmask then
    let (terminated, grammar) := isTerminated grammar
    (!terminated, grammar)
  else (false, grammar)

/-- `_fill_bitmasks` of one entry. -/
def fillEntry (bitmask : List Row) (grammar : Grammar) (index : Nat) (applyBitmask : Bool) :
    Option (List Row × Grammar) :=
  if index < bitmask.length then
    let (fills, grammar) := applies applyBitmask grammar
    some (bitmask.set index (if fills then fillBitmask grammar else fullMask), grammar)
  else none

structure Filling (Grammar : Type) where
  bitmask : List Row
  grammar : Grammar
  cumulativeIndex : Nat
  applyBitmask : Bool
  stateAdvancements : Nat

/-- The loop body over the draft tokens and the final -1. A rejected token fails an
assertion. -/
def fillToken (filling : Filling Grammar) (token : Token) : Option (Filling Grammar) :=
  match fillEntry filling.bitmask filling.grammar filling.cumulativeIndex
      filling.applyBitmask with
  | none => none
  | some (bitmask, grammar) =>
    let applyBitmask := if token = -1 then false else filling.applyBitmask
    let (advances, grammar) := applies applyBitmask grammar
    if advances then
      let (accepted, grammar) := acceptTokens grammar [token]
      if accepted then
        some ⟨bitmask, grammar, filling.cumulativeIndex + 1, applyBitmask,
          filling.stateAdvancements + 1⟩
      else none
    else
      some ⟨bitmask, grammar, filling.cumulativeIndex + 1, applyBitmask,
        filling.stateAdvancements⟩

def fillTokens (filling : Filling Grammar) : List Token → Option (Filling Grammar)
  | [] => some filling
  | token :: rest =>
    match fillToken filling token with
    | none => none
    | some next => fillTokens next rest

/-- The rows of one request. The grammar is rolled back at the end. -/
def fillRequest (bitmask : List Row) (grammar : Grammar) (cumulativeIndex : Nat)
    (applyBitmask : Bool) (reqTokens : List Token) : Option (List Row × Grammar × Nat) :=
  match fillTokens ⟨bitmask, grammar, cumulativeIndex, applyBitmask, 0⟩ (reqTokens ++ [-1]) with
  | none => none
  | some filled =>
    if filled.stateAdvancements > 0 then
      (rollback filled.grammar filled.stateAdvancements).map fun grammar =>
        (filled.bitmask, grammar, filled.cumulativeIndex)
    else some (filled.bitmask, filled.grammar, filled.cumulativeIndex)

/-- A request's structured output is replaced. -/
def setStructured (requests : Requests Grammar) (reqId : ReqId) (request : Request Grammar)
    (structured : StructuredOutputRequest Grammar) : Requests Grammar :=
  requests.set reqId { request with structuredOutputRequest := some structured }

/-- The serial path. -/
def fillSerial (config : ManagerConfig) (scheduled : Dict ReqId (List Token)) :
    List ReqId → Requests Grammar → List Row → Nat →
      Option (Requests Grammar × List Row × Nat)
  | [], requests, bitmask, cumulativeIndex => some (requests, bitmask, cumulativeIndex)
  | reqId :: rest, requests, bitmask, cumulativeIndex =>
    match requests.get? reqId with
    | none => none
    | some request =>
      match request.structuredOutputRequest with
      | none => none
      | some structured =>
        let (applyBitmask, structured) := shouldFillBitmask config request structured
        match fillRequest bitmask structured.grammar cumulativeIndex applyBitmask
            ((scheduled.get? reqId).getD []) with
        | none => none
        | some (bitmask, grammar, cumulativeIndex) =>
          fillSerial config scheduled rest
            (setStructured requests reqId request { structured with grammar := grammar })
            bitmask cumulativeIndex

/-- An entry of the batches that the thread pool works on. -/
structure FillTask where
  reqId : ReqId
  index : Nat
  applyBitmask : Bool

/-- The entries in the order of the requests. -/
def collectTasks (config : ManagerConfig) :
    List ReqId → Requests Grammar → Nat → Option (Requests Grammar × List FillTask)
  | [], requests, _ => some (requests, [])
  | reqId :: rest, requests, cumulativeIndex =>
    match requests.get? reqId with
    | none => none
    | some request =>
      match request.structuredOutputRequest with
      | none => none
      | some structured =>
        let (applyBitmask, structured) := shouldFillBitmask config request structured
        (collectTasks config rest (setStructured requests reqId request structured)
          (cumulativeIndex + 1)).map fun (requests, tasks) =>
            (requests, ⟨reqId, cumulativeIndex, applyBitmask⟩ :: tasks)

/-- The batches as they are submitted, with the entries not submitted yet. -/
def submitBatches (batchSize : Nat) : List FillTask → List FillTask → List (List FillTask)
  | [], batch => if batch.isEmpty then [] else [batch]
  | task :: rest, batch =>
    if (batch ++ [task]).length = batchSize then
      (batch ++ [task]) :: submitBatches batchSize rest []
    else submitBatches batchSize rest (batch ++ [task])

def runTask (requests : Requests Grammar) (bitmask : List Row) (task : FillTask) :
    Option (Requests Grammar × List Row) :=
  match requests.get? task.reqId with
  | none => none
  | some request =>
    match request.structuredOutputRequest with
    | none => none
    | some structured =>
      (fillEntry bitmask structured.grammar task.index task.applyBitmask).map
        fun (bitmask, grammar) =>
          (setStructured requests task.reqId request { structured with grammar := grammar },
            bitmask)

def runTasks : List FillTask → Requests Grammar → List Row → Option (Requests Grammar × List Row)
  | [], requests, bitmask => some (requests, bitmask)
  | task :: rest, requests, bitmask =>
    match runTask requests bitmask task with
    | none => none
    | some (requests, bitmask) => runTasks rest requests bitmask

/-- `grammar_bitmask`: the requests, the manager's bitmask and the rows that are sent. `pool`
is the order in which the threads get to the entries of the submitted batches. -/
def grammarBitmask (config : ManagerConfig) (pool : List (List FillTask) → List FillTask)
    (requests : Requests Grammar) (bitmask : Option (List Row)) (reqIds : List ReqId)
    (scheduled : Dict ReqId (List Token)) :
    Option (Requests Grammar × Option (List Row) × Option (List Row)) :=
  if reqIds.isEmpty then some (requests, bitmask, none)
  else
    let rows :=
      bitmask.getD (List.replicate (config.maxNumSeqs * (1 + config.numSpeculativeTokens)) fullMask)
    if reqIds.length > config.fillBitmaskParallelThreshold ∧ config.numSpeculativeTokens = 0 then
      match collectTasks config reqIds requests 0 with
      | none => none
      | some (requests, tasks) =>
        (runTasks (pool (submitBatches config.fillBitmaskParallelBatchSize tasks [])) requests
          rows).map fun (requests, rows) =>
            (requests, some rows, some (rows.take tasks.length))
    else
      (fillSerial config scheduled reqIds requests rows 0).map
        fun (requests, rows, cumulativeIndex) =>
          (requests, some rows, some (rows.take cumulativeIndex))

/-- The scheduled requests that get a row, in the scheduler's order. -/
def structuredIds (requests : Requests Grammar) (output : SchedulerOutput) : List ReqId :=
  output.numScheduledTokens.keys.filter fun reqId =>
    match requests.get? reqId with
    | none => false
    | some request => request.useStructuredOutput && !request.isPrefillChunk

def getGrammarBitmask (config : ManagerConfig) (pool : List (List FillTask) → List FillTask)
    (requests : Requests Grammar) (bitmask : Option (List Row)) (output : SchedulerOutput) :
    Option (Requests Grammar × Option (List Row) × Option GrammarOutput) :=
  let reqIds := structuredIds requests output
  if output.hasStructuredOutputRequests = false then some (requests, bitmask, none)
  else if reqIds.isEmpty then some (requests, bitmask, none)
  else
    (grammarBitmask config pool requests bitmask reqIds output.scheduledSpecDecodeTokens).map
      fun (requests, bitmask, rows) =>
        (requests, bitmask, rows.map fun rows => ⟨reqIds, rows⟩)

/-! Applying. -/

/-- One row of the logits, `none` is minus infinity. -/
abbrev LogitsRow (Num : Type) := Token → Option Num

variable {Num : Type}

/-- The library masks the tokens whose bit is not set. -/
def maskRow (row : Row) (logits : LogitsRow Num) : LogitsRow Num :=
  fun token => if row token then logits token else none

/-- `xgr.apply_token_bitmask_inplace`, on all rows or on those that are listed. -/
def applyTokenBitmaskInplace (logits : List (LogitsRow Num)) (bitmask : List Row) :
    Option (List Nat) → List (LogitsRow Num)
  | none => List.zipWith maskRow bitmask logits
  | some indices =>
    logits.mapIdx fun i row =>
      if i ∈ indices then maskRow (bitmask[i]?.getD fullMask) row else row

def draftsOf (specTokens : Dict ReqId (List Token)) (reqId : ReqId) : List Token :=
  (specTokens.get? reqId).getD []

/-- The logits row of every structured output request in the batch. -/
def batchIndices (specTokens : Dict ReqId (List Token)) (structured : List ReqId) :
    List ReqId → Nat → Nat → Dict ReqId Nat → Dict ReqId Nat
  | [], _, _, indices => indices
  | reqId :: rest, batchIndex, cumulativeOffset, indices =>
    batchIndices specTokens structured rest (batchIndex + 1)
      (cumulativeOffset + (draftsOf specTokens reqId).length)
      (if reqId ∈ structured then indices.set reqId (batchIndex + cumulativeOffset) else indices)

/-- The rows of one request are copied from the bitmask, from `i` on. -/
def copyRows (bitmask : List Row) (cumulativeIndex logitIdx : Nat) :
    Nat → Nat → List Row × List Nat → Option (List Row × List Nat)
  | 0, _, copied => some copied
  | count + 1, i, (sorted, outIndices) =>
    match bitmask[cumulativeIndex + i]? with
    | none => none
    | some row =>
      if logitIdx + i < sorted.length then
        copyRows bitmask cumulativeIndex logitIdx count (i + 1)
          (sorted.set (logitIdx + i) row, outIndices ++ [logitIdx + i])
      else none

def sortRows (specTokens : Dict ReqId (List Token)) (bitmask : List Row)
    (indices : Dict ReqId Nat) :
    List ReqId → Nat → List Row × List Nat → Option (List Row × List Nat)
  | [], _, copied => some copied
  | reqId :: rest, cumulativeIndex, copied =>
    let numSpecTokens := (draftsOf specTokens reqId).length
    match (match indices.get? reqId with
      | none => some copied
      | some logitIdx => copyRows bitmask cumulativeIndex logitIdx (1 + numSpecTokens) 0 copied)
      with
    | none => none
    | some copied =>
      sortRows specTokens bitmask indices rest (cumulativeIndex + (1 + numSpecTokens)) copied

def applyGrammarBitmask (specTokens : Dict ReqId (List Token)) (output : GrammarOutput)
    (reqIds : List ReqId) (logits : List (LogitsRow Num)) : Option (List (LogitsRow Num)) :=
  let indices := batchIndices specTokens output.structuredOutputRequestIds reqIds 0 0 Dict.empty
  (sortRows specTokens output.grammarBitmask indices output.structuredOutputRequestIds 0
    (List.replicate logits.length fullMask, [])).map fun (sorted, outIndices) =>
      if outIndices.length = logits.length then applyTokenBitmaskInplace logits sorted none
      else applyTokenBitmaskInplace logits sorted (some outIndices)

/-! Draft tokens from the worker. -/

/-- The loop body of `update_draft_token_ids`. -/
def updateDraft (config : ManagerConfig) (request : Request Grammar)
    (specTokenIds : List Token) : Option (Request Grammar) :=
  if request.isFinished then some request
  else if request.isPrefillChunk then some { request with specTokenIds := [] }
  else
    match request.structuredOutputRequest with
    | none => some { request with specTokenIds := specTokenIds }
    | some structured =>
      let (advances, structured) := shouldAdvance config request structured
      if advances then
        (validateTokens structured.grammar specTokenIds).map fun (valid, grammar) =>
          { request with
            specTokenIds := valid
            structuredOutputRequest := some { structured with grammar := grammar } }
      else
        some { request with
          specTokenIds := specTokenIds
          structuredOutputRequest := some structured }

def updateDraftTokenIds (config : ManagerConfig) :
    List (ReqId × List Token) → Requests Grammar → Option (Requests Grammar)
  | [], requests => some requests
  | (reqId, specTokenIds) :: rest, requests =>
    match requests.get? reqId with
    | none => updateDraftTokenIds config rest requests
    | some request =>
      match updateDraft config request specTokenIds with
      | none => none
      | some request => updateDraftTokenIds config rest (requests.set reqId request)

/-- The loop body of `update_draft_token_ids_in_output`, with the scheduled placeholders. -/
def updateDraftInOutput (config : ManagerConfig) (request : Request Grammar)
    (placeholders specTokenIds : List Token) : Option (Request Grammar × List Token) :=
  let trimmed := specTokenIds.take placeholders.length
  let pad (tokens : List Token) : List Token :=
    tokens ++ List.replicate (placeholders.length - tokens.length) (-1)
  match request.structuredOutputRequest with
  | none => some (request, pad trimmed)
  | some structured =>
    let (advances, structured) := shouldAdvance config request structured
    if advances then
      (validateTokens structured.grammar trimmed).map fun (valid, grammar) =>
        ({ request with structuredOutputRequest := some { structured with grammar := grammar } },
          pad valid)
    else some ({ request with structuredOutputRequest := some structured }, pad trimmed)

def updateDraftTokenIdsInOutput (config : ManagerConfig) :
    List (ReqId × List Token) → Requests Grammar × Dict ReqId (List Token) →
      Option (Requests Grammar × Dict ReqId (List Token))
  | [], state => some state
  | (reqId, specTokenIds) :: rest, (requests, scheduled) =>
    match requests.get? reqId with
    | none => updateDraftTokenIdsInOutput config rest (requests, scheduled)
    | some request =>
      if request.isFinished ∨ (scheduled.get? reqId).getD [] = [] then
        updateDraftTokenIdsInOutput config rest (requests, scheduled)
      else
        match updateDraftInOutput config request ((scheduled.get? reqId).getD [])
            specTokenIds with
        | none => none
        | some (request, drafts) =>
          updateDraftTokenIdsInOutput config rest
            (requests.set reqId request, scheduled.set reqId drafts)

end VllmDcu.GrammarBitmask

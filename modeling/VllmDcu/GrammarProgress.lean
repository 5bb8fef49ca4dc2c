import VllmDcu.GrammarBitmask

/-! One structured output request in the scheduler: what it appends in each step and what it
passes on to the grammar. -/
namespace VllmDcu.GrammarProgress
open Requests (Token)
open StructuredOutput StructuredOutputGrammar GrammarBitmask

inductive Status where
  | waiting
  | running
  | preempted
  deriving DecidableEq

/-- A step of the request whose output has not arrived. -/
structure Scheduled where
  drafts : List Token
  isPrefillChunk : Bool
  filled : Bool

structure Tracked (Grammar : Type) where
  request : Request Grammar
  status : Status
  discardLatestAsyncTokens : Bool
  inFlight : List Scheduled
  passed : List Token

structure SchedulerConfig where
  manager : ManagerConfig
  asyncScheduling : Bool

/-- What happens to the request. The numbers are the scheduler's choice, the sampled tokens the
worker's; of these `kept` tokens are appended, all of them unless the request stops. -/
inductive Event where
  | scheduleRunning (numNewTokens : Nat)
  | scheduleWaiting (numComputedTokens numNewTokens : Nat)
  | fillBitmask
  | preempt
  | resetPreempt
  | updateDraft (specTokenIds : List Token)
  | updateDraftInOutput (specTokenIds : List Token)
  | updateFromOutput (sampled : List Token) (kept : Nat) (stopped : Bool)

variable {Grammar : Type} [StructuredOutputGrammar Grammar]

omit [StructuredOutputGrammar Grammar] in
/-- `_update_after_schedule` of the two schedulers. -/
def updateAfterSchedule (config : SchedulerConfig) (request : Request Grammar)
    (numScheduledTokens numDrafts : Nat) : Request Grammar :=
  let computed := request.numComputedTokens + numScheduledTokens
  let chunk := decide (computed < request.allTokenIds.length + request.numOutputPlaceholders)
  if config.asyncScheduling && !chunk then
    { request with
      numComputedTokens := computed
      isPrefillChunk := chunk
      numOutputPlaceholders := request.numOutputPlaceholders + (1 + numDrafts)
      specTokenIds := List.replicate config.manager.numSpeculativeTokens (-1) }
  else { request with numComputedTokens := computed, isPrefillChunk := chunk }

/-- The step is in flight. -/
def launch (config : SchedulerConfig) (tracked : Tracked Grammar) (request : Request Grammar)
    (numScheduledTokens : Nat) (drafts : List Token) : Tracked Grammar :=
  let request := updateAfterSchedule config request numScheduledTokens drafts.length
  { tracked with
    request := request
    status := .running
    inFlight := tracked.inFlight ++ [⟨drafts, request.isPrefillChunk, false⟩] }

/-- The running loop of `schedule`. The drafts that fit into the new tokens are scheduled. -/
def scheduleRunning (config : SchedulerConfig) (tracked : Tracked Grammar) (numNewTokens : Nat) :
    Option (Tracked Grammar) :=
  let request := tracked.request
  let numTokens : Int := request.allTokenIds.length
  if tracked.status = .running ∧ request.isFinished = false ∧
      tracked.inFlight.all (·.filled) = true ∧ 0 < numNewTokens ∧
      (numNewTokens : Int) ≤ numTokens + request.specTokenIds.length +
        request.numOutputPlaceholders - request.numComputedTokens then
    let numScheduledSpecTokens := numNewTokens + request.numComputedTokens - numTokens -
      request.numOutputPlaceholders
    let drafts := request.specTokenIds.take numScheduledSpecTokens.toNat
    some (launch config tracked { request with specTokenIds := [] } numNewTokens drafts)
  else none

/-- The waiting loop, for a new or a preempted request. -/
def scheduleWaiting (config : SchedulerConfig) (tracked : Tracked Grammar)
    (numComputedTokens numNewTokens : Nat) : Option (Tracked Grammar) :=
  if tracked.status ≠ .running ∧ tracked.request.isFinished = false ∧
      tracked.inFlight.all (·.filled) = true ∧ 0 < numNewTokens ∧
      numComputedTokens + numNewTokens ≤ tracked.request.allTokenIds.length then
    some (launch config tracked { tracked.request with numComputedTokens := numComputedTokens }
      numNewTokens [])
  else none

/-- The mask of the newest step is asked for. -/
def fillNewest : List Scheduled → List Scheduled
  | [] => []
  | entry :: rest =>
    if entry.filled then entry :: fillNewest rest else { entry with filled := true } :: rest

def fillBitmask (config : SchedulerConfig) (tracked : Tracked Grammar) :
    Option (Tracked Grammar) :=
  match tracked.request.structuredOutputRequest with
  | none => none
  | some structured =>
    let asked := { tracked with inFlight := fillNewest tracked.inFlight }
    if tracked.request.isPrefillChunk then some asked
    else
      some { asked with
        request := { tracked.request with
          structuredOutputRequest :=
            some (shouldFillBitmask config.manager tracked.request structured).2 } }

/-- `_preempt_request`. -/
def preempt (tracked : Tracked Grammar) : Option (Tracked Grammar) :=
  if tracked.status = .running ∧ tracked.request.isFinished = false then
    some { tracked with
      request := { tracked.request with numComputedTokens := 0, specTokenIds := [] }
      status := .preempted }
  else none

/-- The preemption of `reset_prefix_cache`. -/
def resetPreempt (tracked : Tracked Grammar) : Option (Tracked Grammar) :=
  (preempt tracked).map fun tracked =>
    { tracked with
      request := { tracked.request with numOutputPlaceholders := 0 }
      discardLatestAsyncTokens := true }

def updateDraftTokens (config : SchedulerConfig) (tracked : Tracked Grammar)
    (specTokenIds : List Token) : Option (Tracked Grammar) :=
  (updateDraft config.manager tracked.request specTokenIds).map fun request =>
    { tracked with request := request }

/-- The placeholders of the newest step, which are not filled yet, become drafts. -/
def updateDraftTokensInOutput (config : SchedulerConfig) (tracked : Tracked Grammar)
    (specTokenIds : List Token) : Option (Tracked Grammar) :=
  match tracked.inFlight.getLast? with
  | none => none
  | some newest =>
    if newest.filled ∨ tracked.request.isFinished ∨ newest.drafts = [] then some tracked
    else
      (updateDraftInOutput config.manager tracked.request newest.drafts specTokenIds).map
        fun (request, drafts) =>
          { tracked with
            request := request
            inFlight := tracked.inFlight.dropLast ++ [{ newest with drafts := drafts }] }

omit [StructuredOutputGrammar Grammar] in
/-- The computed tokens and placeholders without the rejected drafts. -/
def withoutRejected (request : Request Grammar) (numDrafts numSampled : Nat) : Request Grammar :=
  if numDrafts > 0 ∧ numSampled > 0 then
    let numRejected : Int := numDrafts - (numSampled - 1)
    { request with
      numComputedTokens :=
        if request.numComputedTokens > 0 then request.numComputedTokens - numRejected
        else request.numComputedTokens
      numOutputPlaceholders :=
        if request.numOutputPlaceholders > 0 then request.numOutputPlaceholders - numRejected
        else request.numOutputPlaceholders }
  else request

omit [StructuredOutputGrammar Grammar] in
/-- `_update_request_with_output`: the kept tokens are appended. -/
def appendTokens (config : SchedulerConfig) (request : Request Grammar) (sampled : List Token)
    (kept : Nat) (stopped : Bool) : Request Grammar :=
  { request with
    allTokenIds := request.allTokenIds ++ sampled.take kept
    numOutputPlaceholders :=
      if config.asyncScheduling then request.numOutputPlaceholders - (sampled.take kept).length
      else request.numOutputPlaceholders
    isFinished := stopped }

/-- The end of the loop body of `update_from_output`: the new tokens go to the grammar. -/
def advanceGrammar (config : SchedulerConfig) (tracked : Tracked Grammar)
    (structured : StructuredOutputRequest Grammar) (newTokenIds : List Token) : Tracked Grammar :=
  let (advances, structured) := shouldAdvance config.manager tracked.request structured
  if advances then
    { tracked with
      request := { tracked.request with
        structuredOutputRequest :=
          some { structured with grammar := (acceptTokens structured.grammar newTokenIds).2 } }
      passed := tracked.passed ++ newTokenIds }
  else
    { tracked with request := { tracked.request with structuredOutputRequest := some structured } }

/-- The loop body of `update_from_output` for the oldest step in flight. Only a step that was not
a prefill chunk brings tokens, and its mask was asked for before it was sampled. -/
def updateFromOutput (config : SchedulerConfig) (tracked : Tracked Grammar) (sampled : List Token)
    (kept : Nat) (stopped : Bool) : Option (Tracked Grammar) :=
  match tracked.inFlight with
  | [] => none
  | entry :: rest =>
    let received := { tracked with inFlight := rest }
    if tracked.request.isFinished then some received
    else if sampled = [] then some received
    else if entry.isPrefillChunk ∨ entry.filled = false ∨
        sampled.length > 1 + entry.drafts.length ∨ kept = 0 ∨
        (kept < sampled.length ∧ stopped = false) then none
    else
      let request := withoutRejected tracked.request entry.drafts.length sampled.length
      if config.asyncScheduling ∧ tracked.discardLatestAsyncTokens then
        some { received with request := request, discardLatestAsyncTokens := false }
      else
        match request.structuredOutputRequest with
        | none => none
        | some structured =>
          some (advanceGrammar config
            { received with request := appendTokens config request sampled kept stopped } structured
            (sampled.take kept))

def step (config : SchedulerConfig) (tracked : Tracked Grammar) :
    Event → Option (Tracked Grammar)
  | .scheduleRunning numNewTokens => scheduleRunning config tracked numNewTokens
  | .scheduleWaiting numComputedTokens numNewTokens =>
    scheduleWaiting config tracked numComputedTokens numNewTokens
  | .fillBitmask => fillBitmask config tracked
  | .preempt => preempt tracked
  | .resetPreempt => resetPreempt tracked
  | .updateDraft specTokenIds => updateDraftTokens config tracked specTokenIds
  | .updateDraftInOutput specTokenIds => updateDraftTokensInOutput config tracked specTokenIds
  | .updateFromOutput sampled kept stopped => updateFromOutput config tracked sampled kept stopped

def run (config : SchedulerConfig) : List Event → Tracked Grammar → Option (Tracked Grammar)
  | [], tracked => some tracked
  | event :: rest, tracked =>
    match step config tracked event with
    | none => none
    | some next => run config rest next

omit [StructuredOutputGrammar Grammar] in
/-- A request as it is added. -/
def init (promptTokenIds : Option (List Token)) (allTokenIds : List Token) (grammar : Grammar) :
    Tracked Grammar where
  request :=
    { promptTokenIds := promptTokenIds
      allTokenIds := allTokenIds
      numComputedTokens := 0
      numOutputPlaceholders := 0
      isPrefillChunk := false
      specTokenIds := []
      structuredOutputRequest := some ⟨grammar, none⟩
      isFinished := false }
  status := .waiting
  discardLatestAsyncTokens := false
  inFlight := []
  passed := []

end VllmDcu.GrammarProgress

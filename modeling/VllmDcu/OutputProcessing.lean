import VllmDcu.Dict
import VllmDcu.RequestOutputs
import VllmDcu.Detokenizer

/-! The output processor as one consumer sees it: the request states that put into
one collector, which are those of a single request or of the children of one
parent. Outputs of any other request leave them alone. `none` is a raised
exception; what the tokenizer does with a token and how a position becomes a
logprob entry are parameters. -/
namespace VllmDcu.OutputProcessing
open Dict RequestOutputs Detokenizer Option

abbrev RequestId := List Char

/-- The tokenizer's own code and the arithmetic of log probabilities. -/
structure Tokenizer (State Entry Prob Logprob : Type) where
  decodeNext : State → List Nat → Nat → List Char × State
  nextLogprob : List Logprob → Entry → Logprob
  addLogprob : Prob → Entry → Prob

structure LogprobsProcessor (Prob Logprob : Type) where
  logprobs : Option (List Logprob)
  cumulativeLogprob : Option Prob

structure StreamingUpdate where
  prompt : Option (List Char)
  promptTokenIds : Option (List Nat)
  final : Bool
  deriving DecidableEq, Repr

structure RequestState (State Prob Logprob : Type) where
  requestId : RequestId
  requestIndex : Nat
  outputKind : RequestOutputKind
  prompt : Option (List Char)
  promptTokenIds : Option (List Nat)
  logprobsProcessor : LogprobsProcessor Prob Logprob
  detokenizer : IncrementalDetokenizer State
  streamInterval : Nat
  sentTokensOffset : Nat
  streamingInput : Bool
  inputChunkQueue : Option (List StreamingUpdate)

structure ParentRequest (Prob Logprob Experts : Type) where
  requestId : RequestId
  n : Nat
  outputKind : RequestOutputKind
  childRequests : List RequestId
  outputAggregator : List (Option (CompletionOutput Prob Logprob Experts))

structure EngineCoreOutput (Entry Experts Params : Type) where
  requestId : RequestId
  newTokenIds : List Nat
  newLogprobs : Option (List Entry)
  finishReason : Option FinishReason
  stopReason : Option StopReason
  kvTransferParams : Option Params
  routedExperts : Option Experts

/-- The request states that share a collector, the parent if they are children,
and the collector. -/
structure OutputProcessor (State Prob Logprob Experts Params : Type) where
  requestStates : Dict RequestId (RequestState State Prob Logprob)
  parent : Option (ParentRequest Prob Logprob Experts)
  queue : RequestOutputCollector Prob Logprob Experts Params

variable {State Entry Prob Logprob Experts Params : Type}

def ParentRequest.init (requestId : RequestId) (n : Nat) (outputKind : RequestOutputKind) :
    ParentRequest Prob Logprob Experts :=
  ⟨requestId, n, outputKind, [], if outputKind = .finalOnly then List.replicate n none else []⟩

def childReqId (parentId : RequestId) (index : Nat) : RequestId :=
  Nat.toDigits 10 index ++ '_' :: parentId

/-- The child's sampling parameters differ from the parent's in what this model
does not read. -/
def ParentRequest.getChildInfo (self : ParentRequest Prob Logprob Experts) (index : Nat) :
    ParentRequest Prob Logprob Experts × RequestId :=
  let childId := childReqId self.requestId index
  ({ self with childRequests :=
      if childId ∈ self.childRequests then self.childRequests else self.childRequests ++ [childId] },
    childId)

/-- The completions to hand out and whether the parent is finished. -/
def ParentRequest.getOutputs (self : ParentRequest Prob Logprob Experts) (childRequestId : RequestId)
    (completion : CompletionOutput Prob Logprob Experts) :
    Option (ParentRequest Prob Logprob Experts ×
      List (Option (CompletionOutput Prob Logprob Experts)) × Bool) :=
  let outstanding := decide (childRequestId ∈ self.childRequests)
  let childRequests :=
    if completion.finished then self.childRequests.erase childRequestId else self.childRequests
  let alreadyFinishedAndReturned := completion.finished && !outstanding
  if self.outputKind ≠ .finalOnly then
    some ({ self with childRequests := childRequests },
      if alreadyFinishedAndReturned then [] else [some completion], childRequests.isEmpty)
  else if completion.index < self.outputAggregator.length then
    let aggregator := self.outputAggregator.set completion.index (some completion)
    some ({ self with childRequests := childRequests, outputAggregator := aggregator },
      if childRequests.isEmpty then aggregator else [], childRequests.isEmpty)
  else none

def LogprobsProcessor.updateFromOutput (tokenizer : Tokenizer State Entry Prob Logprob)
    (self : LogprobsProcessor Prob Logprob) (newLogprobs : Option (List Entry)) :
    Option (LogprobsProcessor Prob Logprob) :=
  match newLogprobs with
  | none => some self
  | some entries => do
      let logprobs ← self.logprobs
      let cumulative ← self.cumulativeLogprob
      let done := entries.foldl (fun (acc : List Logprob × Prob) entry =>
        (acc.1 ++ [tokenizer.nextLogprob acc.1 entry], tokenizer.addLogprob acc.2 entry))
        (logprobs, cumulative)
      some ⟨some done.1, some done.2⟩

/-- `logprobs[-count:]`, which is the whole list when `count` is zero. -/
def lastEntries (logprobs : List Logprob) (count : Nat) : List Logprob :=
  if count = 0 then logprobs else logprobs.drop (logprobs.length - count)

def RequestState.newCompletionOutput (self : RequestState State Prob Logprob)
    (tokenIds : List Nat) (finishReason : Option FinishReason) (stopReason : Option StopReason)
    (routedExperts : Option Experts) :
    CompletionOutput Prob Logprob Experts × RequestState State Prob Logprob :=
  let finished := finishReason.isSome
  let delta := decide (self.outputKind = .delta)
  let next := self.detokenizer.getNextOutputText finished delta
  let tokenIds := if delta then tokenIds else self.detokenizer.outputTokenIds
  -- an empty list is passed on as it is, not sliced
  let sliced := delta && !(self.logprobsProcessor.logprobs.getD []).isEmpty
  let logprobs :=
    if sliced then self.logprobsProcessor.logprobs.map fun held => lastEntries held tokenIds.length
    else self.logprobsProcessor.logprobs
  ({ index := self.requestIndex
     text := next.1
     tokenIds := tokenIds
     cumulativeLogprob := self.logprobsProcessor.cumulativeLogprob
     logprobs := logprobs
     sharedLogprobs := !sliced
     routedExperts := routedExperts
     finishReason := finishReason
     stopReason := if finished then stopReason else none },
    { self with detokenizer := next.2 })

/-- Whether an output is sent in this step: FINAL_ONLY sends the final one, a
stream interval lets some steps go by. -/
def RequestState.sends (self : RequestState State Prob Logprob) (finished : Bool) : Bool :=
  if self.outputKind = .finalOnly ∧ finished = false then false
  else if 1 < self.streamInterval then
    finished || decide (self.sentTokensOffset = 0) ||
      decide (self.sentTokensOffset + self.streamInterval ≤ self.detokenizer.numOutputTokens)
  else true

/-- The token ids of the output and the offset they leave. -/
def RequestState.sendTokens (self : RequestState State Prob Logprob) (newTokenIds : List Nat) :
    List Nat × RequestState State Prob Logprob :=
  if 1 < self.streamInterval ∧ self.outputKind = .delta then
    (self.detokenizer.outputTokenIds.drop self.sentTokensOffset,
      { self with sentTokensOffset := self.detokenizer.numOutputTokens })
  else (newTokenIds, self)

def RequestState.makeRequestOutput (self : RequestState State Prob Logprob)
    (parent : Option (ParentRequest Prob Logprob Experts)) (newTokenIds : List Nat)
    (finishReason : Option FinishReason) (stopReason : Option StopReason)
    (kvTransferParams : Option Params) (routedExperts : Option Experts) :
    Option (RequestState State Prob Logprob × Option (ParentRequest Prob Logprob Experts) ×
      Option (RequestOutput Prob Logprob Experts Params)) :=
  let finished := finishReason.isSome
  if self.sends finished = false then some (self, parent, none)
  else
    let sent := self.sendTokens newTokenIds
    let made := sent.2.newCompletionOutput sent.1 finishReason stopReason routedExperts
    match parent with
    | none => some (made.2, none, some ⟨[some made.1], finished, kvTransferParams⟩)
    | some parent => do
        let got ← parent.getOutputs self.requestId made.1
        some (made.2, some got.1,
          if got.2.1 = [] then none else some ⟨got.2.1, got.2.2, kvTransferParams⟩)

def RequestState.applyStreamingUpdate (self : RequestState State Prob Logprob)
    (update : StreamingUpdate) : RequestState State Prob Logprob :=
  { self with
    streamingInput := !update.final
    prompt :=
      match update.prompt with
      | none => self.prompt
      | some [] => self.prompt
      | some more => some (self.prompt.getD [] ++ more)
    promptTokenIds := some (self.promptTokenIds.getD [] ++ update.promptTokenIds.getD []) }

/-- Completions that carry the processor's own list show what it holds now. -/
def showShared (index : Nat) (logprobs : Option (List Logprob))
    (completion : CompletionOutput Prob Logprob Experts) : CompletionOutput Prob Logprob Experts :=
  if completion.index = index ∧ completion.sharedLogprobs = true then
    { completion with logprobs := logprobs }
  else completion

def refreshLogprobs (index : Nat) (logprobs : Option (List Logprob))
    (queue : RequestOutputCollector Prob Logprob Experts Params) :
    RequestOutputCollector Prob Logprob Experts Params :=
  { queue with output := queue.output.map fun output =>
      { output with outputs := output.outputs.map (Option.map (showShared index logprobs)) } }

/-- With FINAL_ONLY children the pending output holds the parent's own list. -/
def refreshAggregated (parent : Option (ParentRequest Prob Logprob Experts))
    (queue : RequestOutputCollector Prob Logprob Experts Params) :
    RequestOutputCollector Prob Logprob Experts Params :=
  match parent with
  | none => queue
  | some parent =>
    if parent.outputKind = .finalOnly then
      { queue with output := queue.output.map fun output =>
          { output with outputs := parent.outputAggregator } }
    else queue

/-- The processor's list after the merge, which a pending completion may have
extended in place. -/
def sharedList (index : Nat) (queue : RequestOutputCollector Prob Logprob Experts Params) :
    Option (List Logprob) :=
  (queue.output.map RequestOutput.outputs).getD [] |>.findSome? fun entry =>
    entry.bind fun completion =>
      if completion.index = index ∧ completion.sharedLogprobs = true then completion.logprobs
      else none

def RequestState.extendShared (self : RequestState State Prob Logprob)
    (queue : RequestOutputCollector Prob Logprob Experts Params) :
    RequestState State Prob Logprob :=
  { self with logprobsProcessor := { self.logprobsProcessor with
      logprobs := (sharedList self.requestIndex queue).or self.logprobsProcessor.logprobs } }

/-- The end of a finished request: a session waits for its next chunk or takes a
queued one, any other request is removed. -/
def OutputProcessor.freeCompleted (self : OutputProcessor State Prob Logprob Experts Params)
    (reqState : RequestState State Prob Logprob) :
    OutputProcessor State Prob Logprob Experts Params :=
  if reqState.streamingInput then
    let next :=
      match reqState.inputChunkQueue with
      | some (update :: rest) =>
        { reqState.applyStreamingUpdate update with inputChunkQueue := some rest }
      | _ => { reqState with inputChunkQueue := none }
    { self with requestStates := self.requestStates.set reqState.requestId next }
  else { self with requestStates := self.requestStates.erase reqState.requestId }

/-- What the output means for the request: the state after detokenizing and
collecting logprobs, and the finish and stop reasons with stop strings. -/
def RequestState.digest (tokenizer : Tokenizer State Entry Prob Logprob)
    (self : RequestState State Prob Logprob) (output : EngineCoreOutput Entry Experts Params) :
    Option (RequestState State Prob Logprob × Option FinishReason × Option StopReason) := do
  let updated := self.detokenizer.update tokenizer.decodeNext output.newTokenIds
    (output.finishReason = some .stop)
  let logprobsProcessor ← self.logprobsProcessor.updateFromOutput tokenizer output.newLogprobs
  let reqState := { self with detokenizer := updated.1, logprobsProcessor := logprobsProcessor }
  match updated.2 with
  | some (first :: rest) => some (reqState, some .stop, some (.text (first :: rest)))
  | _ => some (reqState, output.finishReason, output.stopReason)

/-- Put the output, if one is made; a session that goes on is not finished. -/
def RequestState.deliver (self : RequestState State Prob Logprob)
    (queue : RequestOutputCollector Prob Logprob Experts Params) :
    Option (RequestOutput Prob Logprob Experts Params) →
    Option (RequestOutputCollector Prob Logprob Experts Params)
  | none => some queue
  | some requestOutput =>
    queue.put (if self.streamingInput then { requestOutput with finished := false }
      else requestOutput)

/-- One engine output of `process_outputs`; the flag tells that the engine has to
abort the request. -/
def OutputProcessor.processOutput (tokenizer : Tokenizer State Entry Prob Logprob)
    (self : OutputProcessor State Prob Logprob Experts Params)
    (output : EngineCoreOutput Entry Experts Params) :
    Option (OutputProcessor State Prob Logprob Experts Params × Bool) :=
  match self.requestStates.get? output.requestId with
  | none => some (self, false)
  | some reqState => do
      let digested ← reqState.digest tokenizer output
      let made ← digested.1.makeRequestOutput self.parent output.newTokenIds digested.2.1
        digested.2.2 output.kvTransferParams output.routedExperts
      let queue := refreshAggregated made.2.1
        (refreshLogprobs digested.1.requestIndex digested.1.logprobsProcessor.logprobs self.queue)
      let queue ← made.1.deliver queue made.2.2
      let reqState := made.1.extendShared queue
      let handled : OutputProcessor State Prob Logprob Experts Params :=
        { requestStates := self.requestStates.set reqState.requestId reqState
          parent := made.2.1
          queue := queue }
      if digested.2.1.isSome then
        some (handled.freeCompleted reqState,
          !reqState.streamingInput && output.finishReason.isNone)
      else some (handled, false)

/-- `primed` are the token ids the detokenizer starts with: the prompt's for the
slow one, none for the fast one. -/
structure EngineCoreRequest (State : Type) where
  requestId : RequestId
  resumable : Bool
  promptTokenIds : Option (List Nat)
  outputKind : RequestOutputKind
  stop : StopStrings
  minTokens : Nat
  includeStopStrInOutput : Bool
  decoder : Option State
  primed : List Nat
  logprobs : Bool

def RequestState.fromNewRequest (zero : Prob) (request : EngineCoreRequest State)
    (prompt : Option (List Char)) (requestIndex streamInterval : Nat) :
    RequestState State Prob Logprob where
  requestId := request.requestId
  requestIndex := requestIndex
  outputKind := request.outputKind
  prompt := prompt
  promptTokenIds := request.promptTokenIds
  logprobsProcessor := if request.logprobs then ⟨some [], some zero⟩ else ⟨none, none⟩
  detokenizer :=
    { decoder := request.decoder
      stop := request.stop
      minTokens := request.minTokens
      includeStopStrInOutput := request.includeStopStrInOutput
      promptLen := request.primed.length
      tokenIds := request.primed
      outputText := []
      lastOutputTextOffset := 0 }
  streamInterval := streamInterval
  sentTokensOffset := 0
  streamingInput := request.resumable
  inputChunkQueue := if request.resumable then some [] else none

def markFinal : List StreamingUpdate → List StreamingUpdate
  | [] => []
  | [update] => [{ update with final := true }]
  | update :: rest => update :: markFinal rest

/-- Queue a streaming update instead of immediately applying it. -/
def OutputProcessor.updateStreamingRequestState
    (self : OutputProcessor State Prob Logprob Experts Params)
    (reqState : RequestState State Prob Logprob) (request : EngineCoreRequest State)
    (prompt : Option (List Char)) : Option (OutputProcessor State Prob Logprob Experts Params) :=
  let update : StreamingUpdate := ⟨prompt, request.promptTokenIds, false⟩
  let put (next : RequestState State Prob Logprob) :=
    some { self with requestStates := self.requestStates.set reqState.requestId next }
  if request.resumable = false then
    match reqState.inputChunkQueue with
    | none =>
      -- the engine already finished: emit a final output and clean up
      (self.queue.put streamFinished).map fun queue =>
        { self with
          requestStates := self.requestStates.erase reqState.requestId
          queue := queue }
    | some [] => put { reqState with streamingInput := false }
    | some (first :: rest) => put { reqState with inputChunkQueue := some (markFinal (first :: rest)) }
  else
    match reqState.inputChunkQueue with
    | none => put { reqState.applyStreamingUpdate update with inputChunkQueue := some [] }
    | some queued => put { reqState with inputChunkQueue := some (queued ++ [update]) }

def OutputProcessor.addRequest (zero : Prob) (streamInterval : Nat)
    (self : OutputProcessor State Prob Logprob Experts Params) (request : EngineCoreRequest State)
    (prompt : Option (List Char)) (requestIndex : Nat) :
    Option (OutputProcessor State Prob Logprob Experts Params) :=
  match self.requestStates.get? request.requestId with
  | some reqState => self.updateStreamingRequestState reqState request prompt
  | none =>
    let fresh := RequestState.fromNewRequest zero request prompt requestIndex streamInterval
    some { self with requestStates := self.requestStates.set request.requestId fresh }

/-- What no engine output changes about a request. -/
structure SameRequest (before after : RequestState State Prob Logprob) : Prop where
  requestId : after.requestId = before.requestId
  requestIndex : after.requestIndex = before.requestIndex
  outputKind : after.outputKind = before.outputKind
  streamInterval : after.streamInterval = before.streamInterval
  streamingInput : after.streamingInput = before.streamingInput
  inputChunkQueue : after.inputChunkQueue = before.inputChunkQueue
  prompt : after.prompt = before.prompt
  promptTokenIds : after.promptTokenIds = before.promptTokenIds
  stop : after.detokenizer.stop = before.detokenizer.stop

theorem SameRequest.trans {first second third : RequestState State Prob Logprob}
    (left : SameRequest first second) (right : SameRequest second third) :
    SameRequest first third where
  requestId := right.requestId.trans left.requestId
  requestIndex := right.requestIndex.trans left.requestIndex
  outputKind := right.outputKind.trans left.outputKind
  streamInterval := right.streamInterval.trans left.streamInterval
  streamingInput := right.streamingInput.trans left.streamingInput
  inputChunkQueue := right.inputChunkQueue.trans left.inputChunkQueue
  prompt := right.prompt.trans left.prompt
  promptTokenIds := right.promptTokenIds.trans left.promptTokenIds
  stop := right.stop.trans left.stop

variable (tokenizer : Tokenizer State Entry Prob Logprob)
variable (reqState : RequestState State Prob Logprob)

theorem digest_same {output : EngineCoreOutput Entry Experts Params}
    {digested : RequestState State Prob Logprob × Option FinishReason × Option StopReason}
    (done : reqState.digest tokenizer output = some digested) :
    SameRequest reqState digested.1 := by
  simp only [RequestState.digest, bind_eq_bind, bind_eq_some_iff] at done
  obtain ⟨logprobsProcessor, -, done⟩ := done
  split at done <;> cases done <;>
    exact ⟨rfl, rfl, rfl, rfl, rfl, rfl, rfl, rfl, update_stop _ _ _ _⟩

theorem extendShared_same (queue : RequestOutputCollector Prob Logprob Experts Params) :
    SameRequest reqState (reqState.extendShared queue) :=
  ⟨rfl, rfl, rfl, rfl, rfl, rfl, rfl, rfl, rfl⟩

theorem sendTokens_same {newTokenIds : List Nat} :
    SameRequest reqState (reqState.sendTokens newTokenIds).2 := by
  unfold RequestState.sendTokens
  split <;> exact ⟨rfl, rfl, rfl, rfl, rfl, rfl, rfl, rfl, rfl⟩

theorem newCompletionOutput_same (tokenIds : List Nat) (finishReason : Option FinishReason)
    (stopReason : Option StopReason) (routedExperts : Option Experts) :
    SameRequest reqState
      (reqState.newCompletionOutput tokenIds finishReason stopReason routedExperts).2 :=
  ⟨rfl, rfl, rfl, rfl, rfl, rfl, rfl, rfl, getNextOutputText_stop _ _ _⟩

/-- The three ways an output is made: nothing is sent, the request has no parent,
or the parent decides. -/
theorem makeRequestOutput_cases {parent : Option (ParentRequest Prob Logprob Experts)}
    {newTokenIds : List Nat} {finishReason : Option FinishReason} {stopReason : Option StopReason}
    {kvTransferParams : Option Params} {routedExperts : Option Experts}
    {made : RequestState State Prob Logprob × Option (ParentRequest Prob Logprob Experts) ×
      Option (RequestOutput Prob Logprob Experts Params)}
    (done : reqState.makeRequestOutput parent newTokenIds finishReason stopReason kvTransferParams
      routedExperts = some made) :
    SameRequest reqState made.1 ∧
    ((reqState.sends finishReason.isSome = false ∧ made = (reqState, parent, none)) ∨
      (reqState.sends finishReason.isSome = true ∧
        ∃ completion : CompletionOutput Prob Logprob Experts,
        completion = ((reqState.sendTokens newTokenIds).2.newCompletionOutput
          (reqState.sendTokens newTokenIds).1 finishReason stopReason routedExperts).1 ∧
        completion.index = reqState.requestIndex ∧ completion.finishReason = finishReason ∧
        ((parent = none ∧ made.2 =
            (none, some ⟨[some completion], finishReason.isSome, kvTransferParams⟩)) ∨
          ∃ held got, parent = some held ∧
            held.getOutputs reqState.requestId completion = some got ∧
            made.2 = (some got.1, if got.2.1 = [] then none
              else some ⟨got.2.1, got.2.2, kvTransferParams⟩)))) := by
  unfold RequestState.makeRequestOutput at done
  by_cases silent : reqState.sends finishReason.isSome = false
  · simp only [silent, ↓reduceIte, some.injEq] at done
    subst done
    exact ⟨⟨rfl, rfl, rfl, rfl, rfl, rfl, rfl, rfl, rfl⟩, Or.inl ⟨silent, rfl⟩⟩
  · rw [if_neg silent] at done
    have sends : reqState.sends finishReason.isSome = true := by simpa using silent
    have same := (sendTokens_same reqState).trans
      (newCompletionOutput_same (reqState.sendTokens newTokenIds).2
        (reqState.sendTokens newTokenIds).1 finishReason stopReason routedExperts)
    have index : ((reqState.sendTokens newTokenIds).2.newCompletionOutput
        (reqState.sendTokens newTokenIds).1 finishReason stopReason routedExperts).1.index =
        reqState.requestIndex := (sendTokens_same reqState).requestIndex
    cases parent with
    | none =>
      simp only [some.injEq] at done
      subst done
      exact ⟨same, Or.inr ⟨sends, _, rfl, index, rfl, Or.inl ⟨rfl, rfl⟩⟩⟩
    | some held =>
      simp only [bind_eq_bind, bind_eq_some_iff, some.injEq] at done
      obtain ⟨got, outputs, rfl⟩ := done
      exact ⟨same, Or.inr ⟨sends, _, rfl, index, rfl, Or.inr ⟨held, got, rfl, outputs, rfl⟩⟩⟩

/-- An output of a known request: the request digests it, an output is made and
put, and the request goes on or is freed. -/
theorem processOutput_cases (processor : OutputProcessor State Prob Logprob Experts Params)
    (output : EngineCoreOutput Entry Experts Params)
    (after : OutputProcessor State Prob Logprob Experts Params × Bool)
    (done : processor.processOutput tokenizer output = some after) :
    (processor.requestStates.get? output.requestId = none ∧ after = (processor, false)) ∨
      ∃ reqState digested made queue, processor.requestStates.get? output.requestId = some reqState ∧
        reqState.digest tokenizer output = some digested ∧
        digested.1.makeRequestOutput processor.parent output.newTokenIds digested.2.1
          digested.2.2 output.kvTransferParams output.routedExperts = some made ∧
        made.1.deliver (refreshAggregated made.2.1 (refreshLogprobs digested.1.requestIndex
          digested.1.logprobsProcessor.logprobs processor.queue)) made.2.2 = some queue ∧
        after.1 = (if digested.2.1.isSome then
            OutputProcessor.freeCompleted ⟨processor.requestStates.set
              (made.1.extendShared queue).requestId (made.1.extendShared queue), made.2.1, queue⟩
              (made.1.extendShared queue)
          else ⟨processor.requestStates.set (made.1.extendShared queue).requestId
            (made.1.extendShared queue), made.2.1, queue⟩) := by
  unfold OutputProcessor.processOutput at done
  cases known : processor.requestStates.get? output.requestId with
  | none =>
    rw [known] at done
    cases done
    exact Or.inl ⟨rfl, rfl⟩
  | some reqState =>
    right
    simp only [known, bind_eq_bind, bind_eq_some_iff] at done
    obtain ⟨digested, digest, made, make, queue, put, done⟩ := done
    refine ⟨reqState, digested, made, queue, rfl, digest, make, put, ?_⟩
    split at done
    · rename_i finished
      cases done
      rw [if_pos finished]
    · rename_i unfinished
      cases done
      rw [if_neg unfinished]

/-- Two collectors with the same finishes waiting in them. -/
structure SamePending (before after : RequestOutputCollector Prob Logprob Experts Params) :
    Prop where
  empty : after.output = none ↔ before.output = none
  finals : ∀ index, after.pendingFinals index = before.pendingFinals index
  finished : after.pendingFinished = before.pendingFinished
  real : before.PendingReal → after.PendingReal

theorem refreshLogprobs_same (index : Nat) (logprobs : Option (List Logprob))
    (queue : RequestOutputCollector Prob Logprob Experts Params) :
    SamePending queue (refreshLogprobs index logprobs queue) := by
  have shown : ∀ completion : CompletionOutput Prob Logprob Experts,
      (showShared index logprobs completion).index = completion.index ∧
        (showShared index logprobs completion).finished = completion.finished := by
    intro completion
    unfold showShared
    split <;> exact ⟨rfl, rfl⟩
  have finalsSame : ∀ (other : Nat) (outputs : List (Option (CompletionOutput Prob Logprob Experts))),
      finals other (outputs.map (Option.map (showShared index logprobs))) = finals other outputs := by
    intro other outputs
    unfold finals
    rw [List.countP_map]
    congr 1
    funext entry
    cases entry with
    | none => rfl
    | some completion => simp [shown completion]
  cases held : queue.output with
  | none =>
    have same : refreshLogprobs index logprobs queue = queue := by
      cases queue
      simp_all [refreshLogprobs]
    rw [same]
    exact ⟨Iff.rfl, fun _ => rfl, rfl, id⟩
  | some output =>
    constructor
    · simp [refreshLogprobs, held]
    · simp [refreshLogprobs, RequestOutputCollector.pendingFinals, held, finalsSame]
    · simp [refreshLogprobs, RequestOutputCollector.pendingFinished, held]
    · intro real later shownLater
      simp only [refreshLogprobs, held, map_some, some.injEq] at shownLater
      subst shownLater
      simpa using real output held

variable (parent : ParentRequest Prob Logprob Experts)

theorem refreshAggregated_streaming (queue : RequestOutputCollector Prob Logprob Experts Params)
    (streaming : parent.outputKind ≠ .finalOnly) :
    refreshAggregated (some parent) queue = queue := by
  simp [refreshAggregated, streaming]

theorem refreshAggregated_empty (parent : Option (ParentRequest Prob Logprob Experts))
    (queue : RequestOutputCollector Prob Logprob Experts Params) (empty : queue.output = none) :
    (refreshAggregated parent queue).output = none := by
  unfold refreshAggregated
  split
  · exact empty
  · split
    · simp [empty]
    · exact empty

theorem sends_finished : reqState.sends true = true := by
  simp [RequestState.sends]

theorem sends_finalOnly (finalOnly : reqState.outputKind = .finalOnly) (finished : Bool)
    (sends : reqState.sends finished = true) : finished = true := by
  cases finished with
  | true => rfl
  | false => simp [RequestState.sends, finalOnly] at sends

theorem getOutputs_streaming {childId : RequestId}
    (completion : CompletionOutput Prob Logprob Experts)
    (streaming : parent.outputKind ≠ .finalOnly) (listed : childId ∈ parent.childRequests) :
    parent.getOutputs childId completion =
      let children := if completion.finished then parent.childRequests.erase childId
        else parent.childRequests
      some ({ parent with childRequests := children }, [some completion], children.isEmpty) := by
  simp [ParentRequest.getOutputs, streaming, listed]

theorem getOutputs_finalOnly (childId : RequestId)
    (completion : CompletionOutput Prob Logprob Experts)
    (finalOnly : parent.outputKind = .finalOnly) (finished : completion.finished = true)
    (inside : completion.index < parent.outputAggregator.length) :
    parent.getOutputs childId completion = let children := parent.childRequests.erase childId
      let aggregator := parent.outputAggregator.set completion.index (some completion)
      some ({ parent with childRequests := children, outputAggregator := aggregator },
        if children.isEmpty then aggregator else [], children.isEmpty) := by
  simp [ParentRequest.getOutputs, finalOnly, finished, inside]

/-- Without stop strings a request finishes when the engine says so. -/
theorem digest_noStop (output : EngineCoreOutput Entry Experts Params)
    (digested : RequestState State Prob Logprob × Option FinishReason × Option StopReason)
    (noStop : reqState.detokenizer.stop.stop = [])
    (done : reqState.digest tokenizer output = some digested) :
    digested.2.1 = output.finishReason := by
  simp only [RequestState.digest, bind_eq_bind, bind_eq_some_iff, update_noStop _ noStop] at done
  obtain ⟨logprobsProcessor, -, done⟩ := done
  cases done
  rfl

end VllmDcu.OutputProcessing

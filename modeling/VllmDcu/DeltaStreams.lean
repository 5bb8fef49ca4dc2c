import VllmDcu.DeltaText
import VllmDcu.StreamPieces
import VllmDcu.ParallelSampling

/-! What the consumer of a DELTA request gathers, against the last output of the
CUMULATIVE request of the same run. -/
namespace VllmDcu.DeltaStreams
open Dict RequestOutputs Detokenizer OutputProcessing DeltaText StreamPieces List Option

/-- A request with one completion, a parent with `n` children, or a streaming
session, for which the front end checks `n` and the stop strings. -/
structure StreamRequest (State Entry Prob Logprob : Type) where
  tokenizer : Tokenizer State Entry Prob Logprob
  zero : Prob
  streamInterval : Nat
  request : EngineCoreRequest State
  prompt : Option (List Char)
  n : Nat
  session : request.resumable = true → n = 1 ∧ request.stop.stop = []

/-- The front end: `added` completions are added, `got` is what the consumer has
taken. -/
structure Stream (State Prob Logprob Experts Params : Type) where
  processor : OutputProcessor State Prob Logprob Experts Params
  added : Nat
  got : List (RequestOutput Prob Logprob Experts Params)

inductive Step (State Entry Experts Params : Type) where
  | add
  /-- The next request of a streaming session. -/
  | update (request : EngineCoreRequest State) (prompt : Option (List Char))
  | engineOutput (output : EngineCoreOutput Entry Experts Params)
  | abort (requestId : RequestId)
  | get

variable {State Entry Prob Logprob Experts Params : Type}

/-- The turn of one internal id in `abort_requests`. -/
def abortRequest (processor : OutputProcessor State Prob Logprob Experts Params)
    (requestId : RequestId) : Option (OutputProcessor State Prob Logprob Experts Params) :=
  match processor.requestStates.get? requestId with
  | none => some processor
  | some reqState => do
      let made ← reqState.makeRequestOutput processor.parent [] (some .abort) none none none
      let queue := refreshAggregated made.2.1 processor.queue
      let queue ← match made.2.2 with
        | none => some queue
        | some requestOutput => queue.put requestOutput
      some { requestStates := processor.requestStates.erase requestId
             parent := made.2.1
             queue := queue }

def StreamRequest.childId (config : StreamRequest State Entry Prob Logprob) (index : Nat) :
    RequestId :=
  if 1 < config.n then childReqId config.request.requestId index else config.request.requestId

def Stream.init (config : StreamRequest State Entry Prob Logprob) (kind : RequestOutputKind) :
    Stream State Prob Logprob Experts Params where
  processor :=
    { requestStates := Dict.empty
      parent :=
        if 1 < config.n then some (ParentRequest.init config.request.requestId config.n kind)
        else none
      queue := RequestOutputCollector.init kind }
  added := 0
  got := []

/-- Add the request, or the next child of the parent. -/
def Stream.add (config : StreamRequest State Entry Prob Logprob) (kind : RequestOutputKind)
    (self : Stream State Prob Logprob Experts Params) :
    Option (Stream State Prob Logprob Experts Params) :=
  if self.added < config.n then
    let child := self.processor.parent.map fun parent => parent.getChildInfo self.added
    let requestId := (child.map Prod.snd).getD config.request.requestId
    (OutputProcessor.addRequest config.zero config.streamInterval
      { self.processor with parent := child.map Prod.fst }
      { config.request with requestId := requestId, outputKind := kind } config.prompt self.added).map
        fun processor => { self with processor := processor, added := self.added + 1 }
  else some self

/-- Chunks of a session are added while the session is there. -/
def Stream.update (config : StreamRequest State Entry Prob Logprob)
    (self : Stream State Prob Logprob Experts Params) (request : EngineCoreRequest State)
    (prompt : Option (List Char)) : Option (Stream State Prob Logprob Experts Params) :=
  match self.processor.requestStates.get? config.request.requestId with
  | none => some self
  | some reqState =>
    if config.request.resumable then
      (self.processor.updateStreamingRequestState reqState request prompt).map fun processor =>
        { self with processor := processor }
    else some self

/-- `get_nowait`; `get` waits while there is no output. -/
def Stream.get (self : Stream State Prob Logprob Experts Params) :
    Stream State Prob Logprob Experts Params :=
  { self with
    processor := { self.processor with queue := self.processor.queue.take }
    got := self.got ++ self.processor.queue.output.toList }

def Stream.step (config : StreamRequest State Entry Prob Logprob) (kind : RequestOutputKind)
    (self : Stream State Prob Logprob Experts Params) :
    Step State Entry Experts Params → Option (Stream State Prob Logprob Experts Params)
  | .add => self.add config kind
  | .update request prompt => self.update config request prompt
  | .engineOutput output =>
    (self.processor.processOutput config.tokenizer output).map fun done =>
      { self with processor := done.1 }
  | .abort requestId =>
    (abortRequest self.processor requestId).map fun processor =>
      { self with processor := processor }
  | .get => some self.get

def Stream.run (config : StreamRequest State Entry Prob Logprob) (kind : RequestOutputKind) :
    Stream State Prob Logprob Experts Params → List (Step State Entry Experts Params) →
    Option (Stream State Prob Logprob Experts Params)
  | self, [] => some self
  | self, step :: rest => (self.step config kind step).bind fun next => next.run config kind rest

/-- What the consumer has taken and what waits for it. -/
def Stream.delivered (self : Stream State Prob Logprob Experts Params) :
    List (RequestOutput Prob Logprob Experts Params) :=
  self.got ++ self.processor.queue.output.toList

def Stream.pieces (self : Stream State Prob Logprob Experts Params) (index : Nat) :
    List (CompletionOutput Prob Logprob Experts) :=
  self.delivered.flatMap fun output => piecesOf index output.outputs

def texts (pieces : List (CompletionOutput Prob Logprob Experts)) : List Char :=
  pieces.flatMap CompletionOutput.text

def tokens (pieces : List (CompletionOutput Prob Logprob Experts)) : List Nat :=
  pieces.flatMap CompletionOutput.tokenIds

def logs (pieces : List (CompletionOutput Prob Logprob Experts)) : List Logprob :=
  pieces.flatMap fun completion => completion.logprobs.getD []

/-- What the pieces of a delta stream add up to, against a cumulative output: a
prefix of it, and all of it when that output is the final one. -/
structure AddsUp (delta : List (CompletionOutput Prob Logprob Experts))
    (last : CompletionOutput Prob Logprob Experts) : Prop where
  text : texts delta <+: last.text
  tokenIds : tokens delta <+: last.tokenIds
  logprobs : logs delta <+: last.logprobs.getD []
  final : last.finished = true → texts delta = last.text ∧ tokens delta = last.tokenIds ∧
    logs delta = last.logprobs.getD []

/-- The delta pieces add up to the last output of the cumulative run; without one
there are none. -/
def Reassembles (delta cumulative : List (CompletionOutput Prob Logprob Experts)) : Prop :=
  match cumulative.getLast? with
  | none => delta = []
  | some last => AddsUp delta last

/-- The completion was added and has ended. -/
def Stream.Over (config : StreamRequest State Entry Prob Logprob)
    (self : Stream State Prob Logprob Experts Params) (index : Nat) : Prop :=
  index < self.added ∧ self.processor.requestStates.get? (config.childId index) = none

/-- The scheduler sends one logprob entry for each new token if logprobs are asked
for, and none otherwise. -/
def Promised (config : StreamRequest State Entry Prob Logprob)
    (self : Stream State Prob Logprob Experts Params) : Step State Entry Experts Params → Prop
  | .engineOutput output =>
    (self.processor.requestStates.get? output.requestId).isSome = true →
    if config.request.logprobs then
      (output.newLogprobs.getD []).length = output.newTokenIds.length
    else output.newLogprobs = none
  | _ => True

/-- An output without token ids is sent before the first logprob only, and it does
not wait in the collector when the first tokens arrive. -/
def KeepsSlices (self : Stream State Prob Logprob Experts Params) :
    Step State Entry Experts Params → Prop
  | .engineOutput output => ∀ reqState,
      self.processor.requestStates.get? output.requestId = some reqState →
      (output.newTokenIds = [] → reqState.sends output.finishReason.isSome = true →
        (reqState.sendTokens []).1 = [] → reqState.logprobsProcessor.logprobs.getD [] = []) ∧
      (output.newTokenIds ≠ [] → ∀ completion ∈ waiting reqState.requestIndex self.processor.queue,
        completion.sharedLogprobs = true → completion.logprobs = none)
  | .abort requestId => ∀ reqState,
      self.processor.requestStates.get? requestId = some reqState →
      (reqState.sendTokens []).1 = [] → reqState.logprobsProcessor.logprobs.getD [] = []
  | _ => True

/-- The condition holds at every step of the delta run. -/
def Along (config : StreamRequest State Entry Prob Logprob)
    (condition : Stream State Prob Logprob Experts Params → Step State Entry Experts Params → Prop) :
    Stream State Prob Logprob Experts Params → List (Step State Entry Experts Params) → Prop
  | _, [] => True
  | self, step :: rest => condition self step ∧
      ∀ next, self.step config .delta step = some next → Along config condition next rest

/-! One request state in both runs. -/

/-- The state of the same request in the CUMULATIVE run. -/
def twin (reqState : RequestState State Prob Logprob) : RequestState State Prob Logprob :=
  { reqState with
    outputKind := .cumulative
    detokenizer := rewind reqState.detokenizer
    sentTokensOffset := 0 }

/-- The tokens that a DELTA request has handed out. -/
def sentCount (reqState : RequestState State Prob Logprob) : Nat :=
  if 1 < reqState.streamInterval then reqState.sentTokensOffset
  else reqState.detokenizer.outputTokenIds.length

theorem numOutputTokens_eq (detokenizer : IncrementalDetokenizer State) :
    detokenizer.numOutputTokens = detokenizer.outputTokenIds.length := by
  simp [IncrementalDetokenizer.numOutputTokens, IncrementalDetokenizer.outputTokenIds]

variable (tokenizer : Tokenizer State Entry Prob Logprob)
variable (reqState : RequestState State Prob Logprob)

theorem digest_twin (output : EngineCoreOutput Entry Experts Params) :
    (twin reqState).digest tokenizer output =
      (reqState.digest tokenizer output).map fun digested => (twin digested.1, digested.2) := by
  simp only [RequestState.digest, twin, update_rewind, bind_eq_bind]
  cases reqState.logprobsProcessor.updateFromOutput tokenizer output.newLogprobs with
  | none => rfl
  | some logprobsProcessor =>
    split <;> rfl

theorem sends_twin (finished : Bool) : (twin reqState).sends finished = true := by
  simp [RequestState.sends, twin]

variable (newTokenIds : List Nat)

/-- The completion that the CUMULATIVE run makes shows all there is. -/
theorem twin_completion {finishReason : Option FinishReason} {stopReason : Option StopReason}
    {routedExperts : Option Experts}
    (plain : reqState.detokenizer.decoder = none → reqState.detokenizer.outputText = []) :
    ((twin reqState).sendTokens newTokenIds).2.newCompletionOutput
        ((twin reqState).sendTokens newTokenIds).1 finishReason stopReason routedExperts =
      (⟨reqState.requestIndex,
        reqState.detokenizer.outputText.take (readyLength reqState.detokenizer finishReason.isSome),
        reqState.detokenizer.outputTokenIds, reqState.logprobsProcessor.cumulativeLogprob,
        reqState.logprobsProcessor.logprobs, true, routedExperts, finishReason,
        if finishReason.isSome then stopReason else none⟩, twin reqState) := by
  have unsliced : (twin reqState).sendTokens newTokenIds = (newTokenIds, twin reqState) := by
    simp [RequestState.sendTokens, twin]
  rw [unsliced]
  have text := getNextOutputText_cumulative reqState.detokenizer finishReason.isSome plain
  simp only [RequestState.newCompletionOutput, twin]
  simp [text]
  rfl

/-- The tokens that a delta output carries are those not handed out yet. -/
theorem sendTokens_delta (sent : Nat) (delta : reqState.outputKind = .delta)
    (offset : 1 < reqState.streamInterval → reqState.sentTokensOffset = sent)
    (fresh : ¬ 1 < reqState.streamInterval →
      reqState.detokenizer.outputTokenIds.drop sent = newTokenIds) :
    (reqState.sendTokens newTokenIds).1 = reqState.detokenizer.outputTokenIds.drop sent ∧
      ∃ sentTokensOffset, (reqState.sendTokens newTokenIds).2 =
          { reqState with sentTokensOffset := sentTokensOffset } ∧
        sentCount (reqState.sendTokens newTokenIds).2 =
          reqState.detokenizer.outputTokenIds.length := by
  unfold RequestState.sendTokens
  by_cases interval : 1 < reqState.streamInterval
  · rw [if_pos ⟨interval, delta⟩]
    refine ⟨by rw [offset interval], _, rfl, ?_⟩
    simp only [sentCount, if_pos interval, numOutputTokens_eq]
  · rw [if_neg (fun both => interval both.1)]
    refine ⟨(fresh interval).symm, reqState.sentTokensOffset, rfl, ?_⟩
    simp only [sentCount, if_neg interval]

/-! What has been handed out of one completion. `taken` are the pieces that the
consumer has, `held` the one that waits in the collector. -/

/-- Before an output is made: the first `sent` tokens are handed out. -/
structure HandedOut (reqState : RequestState State Prob Logprob) (sent : Nat)
    (taken held : List (CompletionOutput Prob Logprob Experts)) : Prop where
  text : texts (taken ++ held) =
    reqState.detokenizer.outputText.take reqState.detokenizer.lastOutputTextOffset
  tokens : tokens (taken ++ held) = reqState.detokenizer.outputTokenIds.take sent
  logprobs : logs (taken ++ held) = (reqState.logprobsProcessor.logprobs.getD []).take sent
  plain : reqState.detokenizer.decoder = none → reqState.detokenizer.outputText = []
  prompt : reqState.detokenizer.promptLen ≤ reqState.detokenizer.tokenIds.length
  sent : sent ≤ reqState.detokenizer.outputTokenIds.length
  /-- One logprob for each token. -/
  counted : ∀ list, reqState.logprobsProcessor.logprobs = some list →
    list.length = reqState.detokenizer.outputTokenIds.length
  single : held.length ≤ 1
  /-- A piece with the processor's own list waits only while that list is empty. -/
  shared : ∀ completion ∈ held, completion.sharedLogprobs = true →
    completion.logprobs = reqState.logprobsProcessor.logprobs ∧
      reqState.logprobsProcessor.logprobs.getD [] = []
  asked : ∀ completion ∈ held,
    completion.logprobs.isSome = reqState.logprobsProcessor.logprobs.isSome

theorem merge_some (completion next : CompletionOutput Prob Logprob Experts)
    (asked : completion.logprobs.isSome = next.logprobs.isSome) :
    ∃ merged, completion.merge next = some merged ∧ merged.text = completion.text ++ next.text ∧
      merged.tokenIds = completion.tokenIds ++ next.tokenIds ∧
      merged.logprobs.getD [] = completion.logprobs.getD [] ++ next.logprobs.getD [] ∧
      merged.logprobs.isSome = next.logprobs.isSome ∧
      merged.sharedLogprobs = completion.sharedLogprobs ∧
      (next.logprobs.getD [] = [] → merged.logprobs = completion.logprobs) := by
  unfold CompletionOutput.merge
  split
  · rename_i entry rest is
    rw [is, isSome_some, isSome_iff_exists] at asked
    obtain ⟨list, held⟩ := asked
    simp only [held, map_some]
    refine ⟨_, rfl, rfl, rfl, ?_, ?_, rfl, ?_⟩
    · simp [is]
    · simp [is]
    · simp [is]
  · rename_i nothing
    have empty : next.logprobs.getD [] = [] := by
      cases list : next.logprobs with
      | none => rfl
      | some entries =>
        cases entries with
        | nil => rfl
        | cons entry rest => exact absurd list (nothing entry rest)
    exact ⟨_, rfl, rfl, rfl, by simp [empty], asked, rfl, fun _ => rfl⟩

variable (taken held : List (CompletionOutput Prob Logprob Experts))

/-- A completion joins what waits: the pieces add up to the same as before and the
new part. -/
theorem join_pieces (next : CompletionOutput Prob Logprob Experts) (single : held.length ≤ 1)
    (asked : ∀ completion ∈ held, completion.logprobs.isSome = next.logprobs.isSome) :
    ∃ result, joined true held.head? next = some result ∧
      texts (taken ++ [result]) = texts (taken ++ held) ++ next.text ∧
      tokens (taken ++ [result]) = tokens (taken ++ held) ++ next.tokenIds ∧
      logs (taken ++ [result]) = logs (taken ++ held) ++ next.logprobs.getD [] ∧
      result.logprobs.isSome = next.logprobs.isSome ∧
      (result.sharedLogprobs = true → result = next ∨ ∃ completion ∈ held,
        completion.sharedLogprobs = true ∧
          (next.logprobs.getD [] = [] → result.logprobs = completion.logprobs)) := by
  match held, single, asked with
  | [], _, _ => exact ⟨next, rfl, by simp [texts], by simp [tokens], by simp [logs], rfl, fun _ => Or.inl rfl⟩
  | [completion], _, asked =>
    obtain ⟨merged, merge, text, tokenIds, logprobs, isSome, shared, same⟩ :=
      merge_some completion next (asked completion mem_cons_self)
    refine ⟨merged, merge, ?_, ?_, ?_, isSome, ?_⟩
    · simp [texts, text]
    · simp [tokens, tokenIds]
    · simp [logs, logprobs]
    · intro isShared
      exact Or.inr ⟨completion, mem_cons_self, shared.symm.trans isShared, same⟩

/-- What a CUMULATIVE completion shows of the state. -/
structure Shows (reqState : RequestState State Prob Logprob)
    (last : CompletionOutput Prob Logprob Experts) : Prop where
  text : last.text =
    reqState.detokenizer.outputText.take (readyLength reqState.detokenizer last.finished)
  tokenIds : last.tokenIds = reqState.detokenizer.outputTokenIds
  logprobs : last.logprobs = reqState.logprobsProcessor.logprobs

theorem twin_shows {finishReason : Option FinishReason} {stopReason : Option StopReason}
    {routedExperts : Option Experts}
    (plain : reqState.detokenizer.decoder = none → reqState.detokenizer.outputText = []) :
    ∃ last, ((twin reqState).sendTokens newTokenIds).2.newCompletionOutput
        ((twin reqState).sendTokens newTokenIds).1 finishReason stopReason routedExperts =
        (last, twin reqState) ∧
      last.index = reqState.requestIndex ∧ last.finishReason = finishReason ∧
      Shows reqState last :=
  ⟨_, twin_completion reqState newTokenIds plain, rfl, rfl, ⟨rfl, rfl, rfl⟩⟩

/-- The last CUMULATIVE completion shows the state; when it is the final one, all
of it is handed out. -/
def LastShows (reqState : RequestState State Prob Logprob)
    (pieces : List (CompletionOutput Prob Logprob Experts)) :
    Option (CompletionOutput Prob Logprob Experts) → Prop
  | none => pieces = []
  | some last => Shows reqState last ∧ (last.finished = true →
      reqState.detokenizer.lastOutputTextOffset = reqState.detokenizer.outputText.length ∧
        sentCount reqState = reqState.detokenizer.outputTokenIds.length)

/-- A completion that is added and not over. -/
structure Live (reqState : RequestState State Prob Logprob)
    (taken held : List (CompletionOutput Prob Logprob Experts))
    (last : Option (CompletionOutput Prob Logprob Experts)) : Prop where
  handedOut : HandedOut reqState (sentCount reqState) taken held
  holdsBack : Held reqState.detokenizer
  last : LastShows reqState (taken ++ held) last

theorem handedOut_addsUp (last : CompletionOutput Prob Logprob Experts)
    (handed : HandedOut reqState (sentCount reqState) taken held) (shows_ : Shows reqState last)
    (ready : reqState.detokenizer.lastOutputTextOffset ≤ readyLength reqState.detokenizer
      last.finished)
    (final : last.finished = true →
      reqState.detokenizer.lastOutputTextOffset = reqState.detokenizer.outputText.length ∧
        sentCount reqState = reqState.detokenizer.outputTokenIds.length) :
    AddsUp (taken ++ held) last := by
  constructor
  · rw [handed.text, shows_.text]
    exact take_prefix_take_left ready
  · rw [handed.tokens, shows_.tokenIds]
    exact take_prefix _ _
  · rw [handed.logprobs, shows_.logprobs]
    exact take_prefix _ _
  · intro finished
    obtain ⟨allText, allTokens⟩ := final finished
    rw [handed.text, handed.tokens, handed.logprobs, shows_.text, shows_.tokenIds, shows_.logprobs,
      finished, allText, allTokens]
    refine ⟨rfl, take_length, ?_⟩
    cases list : reqState.logprobsProcessor.logprobs with
    | none => simp
    | some entries =>
      rw [← handed.counted entries list]
      exact take_length

theorem Live.reassembles {reqState : RequestState State Prob Logprob}
    {taken held cumulative : List (CompletionOutput Prob Logprob Experts)}
    (live : Live reqState taken held cumulative.getLast?) :
    Reassembles (taken ++ held) cumulative := by
  have last := live.last
  unfold Reassembles
  cases is : cumulative.getLast? with
  | none =>
    rw [is] at last
    exact last
  | some completion =>
    rw [is] at last
    apply handedOut_addsUp reqState taken held completion live.handedOut last.1 _ last.2
    cases finished : completion.finished with
    | false => exact live.holdsBack
    | true => exact Nat.le_of_eq (last.2 finished).1

/-- The state after a delta output: the text that is ready is handed out. -/
def handOut (reqState : RequestState State Prob Logprob) (finished : Bool) (sentTokensOffset : Nat) :
    RequestState State Prob Logprob :=
  { reqState with
    detokenizer := { reqState.detokenizer with
      lastOutputTextOffset := readyLength reqState.detokenizer finished }
    sentTokensOffset := sentTokensOffset }

/-- Making a delta output: everything that is ready is handed out. -/
theorem send_handedOut {sent : Nat} {taken held : List (CompletionOutput Prob Logprob Experts)}
    (finishReason : Option FinishReason) {stopReason : Option StopReason}
    {routedExperts : Option Experts} (handed : HandedOut reqState sent taken held)
    (delta : reqState.outputKind = .delta)
    (offset : 1 < reqState.streamInterval → reqState.sentTokensOffset = sent)
    (fresh : ¬ 1 < reqState.streamInterval →
      reqState.detokenizer.outputTokenIds.drop sent = newTokenIds)
    (ready : reqState.detokenizer.lastOutputTextOffset ≤
      readyLength reqState.detokenizer finishReason.isSome)
    (sliced : reqState.detokenizer.outputTokenIds.drop sent = [] →
      reqState.logprobsProcessor.logprobs.getD [] = []) :
    ∃ next result sentTokensOffset,
      (reqState.sendTokens newTokenIds).2.newCompletionOutput (reqState.sendTokens newTokenIds).1
          finishReason stopReason routedExperts =
        (next, handOut reqState finishReason.isSome sentTokensOffset) ∧
      next.index = reqState.requestIndex ∧ next.finishReason = finishReason ∧
      joined true held.head? next = some result ∧
      HandedOut (handOut reqState finishReason.isSome sentTokensOffset)
        (sentCount (handOut reqState finishReason.isSome sentTokensOffset)) taken [result] ∧
      sentCount (handOut reqState finishReason.isSome sentTokensOffset) =
        reqState.detokenizer.outputTokenIds.length := by
  obtain ⟨carried, sentTokensOffset, state, count⟩ :=
    sendTokens_delta reqState newTokenIds sent delta offset fresh
  obtain ⟨text, detokenizer⟩ := getNextOutputText_delta reqState.detokenizer handed.plain ready
  generalize isLogs : (if !(reqState.logprobsProcessor.logprobs.getD []).isEmpty then
    reqState.logprobsProcessor.logprobs.map fun list =>
      lastEntries list (reqState.detokenizer.outputTokenIds.drop sent).length
    else reqState.logprobsProcessor.logprobs) = carriedLogs
  have isSome : carriedLogs.isSome = reqState.logprobsProcessor.logprobs.isSome := by
    rw [← isLogs]
    split <;> simp
  -- the slice of the logprobs begins where the tokens begin
  have logsAdd : (reqState.logprobsProcessor.logprobs.getD []).take sent ++ carriedLogs.getD [] =
      reqState.logprobsProcessor.logprobs.getD [] := by
    cases list : reqState.logprobsProcessor.logprobs with
    | none => simp [← isLogs, list]
    | some entries =>
      cases nothing : entries with
      | nil => simp [← isLogs, list, nothing]
      | cons entry rest =>
        have counted := handed.counted entries list
        have some_ : reqState.detokenizer.outputTokenIds.drop sent ≠ [] := by
          intro none_
          have empty := sliced none_
          rw [list, nothing] at empty
          cases empty
        have positive := length_pos_iff.mpr some_
        have length := length_drop (l := reqState.detokenizer.outputTokenIds) (i := sent)
        have begins : entries.length - (reqState.detokenizer.outputTokenIds.drop sent).length =
            sent := by
          omega
        have slice : carriedLogs.getD [] = entries.drop sent := by
          rw [← isLogs, list]
          simp only [getD_some, nothing, isEmpty_cons, Bool.not_false, ↓reduceIte,
            map_some, lastEntries]
          rw [if_neg (by omega), ← nothing, begins]
        rw [slice, ← nothing]
        exact take_append_drop _ _
  obtain ⟨next, isNext, made⟩ : ∃ next : CompletionOutput Prob Logprob Experts,
      next = ⟨reqState.requestIndex,
        (reqState.detokenizer.getNextOutputText finishReason.isSome true).1,
        reqState.detokenizer.outputTokenIds.drop sent, reqState.logprobsProcessor.cumulativeLogprob,
        carriedLogs, !(!(reqState.logprobsProcessor.logprobs.getD []).isEmpty), routedExperts,
        finishReason, if finishReason.isSome then stopReason else none⟩ ∧
      (reqState.sendTokens newTokenIds).2.newCompletionOutput (reqState.sendTokens newTokenIds).1
          finishReason stopReason routedExperts =
        (next, handOut reqState finishReason.isSome sentTokensOffset) := by
    refine ⟨_, rfl, ?_⟩
    unfold handOut
    rw [carried, state, ← detokenizer]
    simp only [RequestState.newCompletionOutput, delta, decide_true, Bool.true_and, ↓reduceIte, isLogs]
  rw [state] at count
  have allSent : sentCount (handOut reqState finishReason.isSome sentTokensOffset) =
      reqState.detokenizer.outputTokenIds.length := count
  have nextLogs : next.logprobs = carriedLogs := by rw [isNext]
  obtain ⟨result, join, joinedText, joinedTokens, joinedLogs, joinedSome, joinedShared⟩ :=
    join_pieces taken held next handed.single fun completion waits =>
      (handed.asked completion waits).trans (by rw [nextLogs, isSome])
  rw [nextLogs] at joinedLogs joinedSome
  refine ⟨next, result, sentTokensOffset, made, by rw [isNext], by rw [isNext], join, ?_, allSent⟩
  rw [allSent]
  constructor
  case text =>
    rw [joinedText, handed.text, isNext]
    exact text
  case tokens =>
    rw [joinedTokens, handed.tokens, isNext]
    exact (take_append_drop _ _).trans take_length.symm
  case logprobs =>
    rw [joinedLogs, handed.logprobs, logsAdd]
    cases list : reqState.logprobsProcessor.logprobs with
    | none => simp [handOut, list]
    | some entries =>
      rw [← handed.counted entries list]
      simp [handOut, list]
  case plain => exact handed.plain
  case prompt => exact handed.prompt
  case sent => exact Nat.le_refl _
  case counted => exact handed.counted
  case single => exact Nat.le_refl 1
  case shared =>
    intro completion waits isShared
    rw [mem_singleton.mp waits] at isShared ⊢
    rcases joinedShared isShared with rfl | ⟨first, inHeld, firstShared, same⟩
    · -- passed on as it is, which happens to an empty list only
      rw [isNext] at isShared
      simp only [Bool.not_not, List.isEmpty_iff] at isShared
      simp [nextLogs, ← isLogs, isShared, handOut]
    · obtain ⟨isList, empty⟩ := handed.shared first inHeld firstShared
      refine ⟨(same ?_).trans isList, empty⟩
      simp [nextLogs, ← isLogs, empty]
  case asked =>
    intro completion waits
    rw [mem_singleton.mp waits, joinedSome]
    exact isSome

/-- The list of logprobs grows by one entry for each entry of the engine. -/
theorem updateFromOutput_grows {processor : LogprobsProcessor Prob Logprob}
    {newLogprobs : Option (List Entry)} {count : Nat}
    (cumulative : processor.cumulativeLogprob.isSome = processor.logprobs.isSome)
    (promised : if processor.logprobs.isSome then (newLogprobs.getD []).length = count
      else newLogprobs = none) :
    ∃ after more, processor.updateFromOutput tokenizer newLogprobs = some after ∧
      after.cumulativeLogprob.isSome = after.logprobs.isSome ∧
      after.logprobs = processor.logprobs.map (· ++ more) ∧
      (processor.logprobs.isSome = true → more.length = count) := by
  have folded : ∀ (entries : List Entry) (list : List Logprob) (prob : Prob), ∃ more last,
      entries.foldl (fun (acc : List Logprob × Prob) entry =>
        (acc.1 ++ [tokenizer.nextLogprob acc.1 entry], tokenizer.addLogprob acc.2 entry))
        (list, prob) = (list ++ more, last) ∧ more.length = entries.length := by
    intro entries
    induction entries with
    | nil =>
      intro list prob
      exact ⟨[], prob, by simp, rfl⟩
    | cons entry rest ih =>
      intro list prob
      obtain ⟨more, last, tail, length⟩ := ih (list ++ [tokenizer.nextLogprob list entry])
        (tokenizer.addLogprob prob entry)
      refine ⟨tokenizer.nextLogprob list entry :: more, last, ?_, by simp [length]⟩
      rw [foldl_cons, tail, append_assoc]
      rfl
  cases asked : processor.logprobs with
  | none =>
    rw [asked] at promised cumulative
    subst promised
    exact ⟨processor, [], rfl, by rw [asked]; exact cumulative, by simp [asked], by simp⟩
  | some list =>
    rw [asked] at promised cumulative
    obtain ⟨prob, isProb⟩ := isSome_iff_exists.mp cumulative
    cases newLogprobs with
    | none =>
      exact ⟨processor, [], rfl, by simp [asked, isProb], by simp [asked], fun _ => promised⟩
    | some entries =>
      obtain ⟨more, last, done, length⟩ := folded entries list prob
      refine ⟨⟨some (list ++ more), some last⟩, more, ?_, rfl, rfl, fun _ => length.trans promised⟩
      simp [LogprobsProcessor.updateFromOutput, asked, isProb, done]

theorem outputTokenIds_append {before after : IncrementalDetokenizer State} {newTokenIds : List Nat}
    (prompt : before.promptLen ≤ before.tokenIds.length) (samePrompt : after.promptLen = before.promptLen)
    (tokenIds : after.tokenIds = before.tokenIds ++ newTokenIds) :
    after.outputTokenIds = before.outputTokenIds ++ newTokenIds := by
  unfold IncrementalDetokenizer.outputTokenIds
  rw [tokenIds, samePrompt, drop_append_of_le_length prompt]

/-- An engine output is taken in: nothing is handed out, and nothing that was. -/
theorem digest_handedOut (output : EngineCoreOutput Entry Experts Params)
    (handed : HandedOut reqState (sentCount reqState) taken held)
    (holdsBack : Held reqState.detokenizer)
    (cumulative : reqState.logprobsProcessor.cumulativeLogprob.isSome =
      reqState.logprobsProcessor.logprobs.isSome)
    (promised : if reqState.logprobsProcessor.logprobs.isSome then
        (output.newLogprobs.getD []).length = output.newTokenIds.length
      else output.newLogprobs = none)
    (quiet : output.newTokenIds ≠ [] → ∀ completion ∈ held,
      completion.sharedLogprobs = true → completion.logprobs = none) :
    ∃ digested more stopString, reqState.digest tokenizer output = some digested ∧
      digested.1 = { reqState with
        detokenizer := digested.1.detokenizer, logprobsProcessor := digested.1.logprobsProcessor } ∧
      digested.1.logprobsProcessor.cumulativeLogprob.isSome =
        digested.1.logprobsProcessor.logprobs.isSome ∧
      digested.1.logprobsProcessor.logprobs = reqState.logprobsProcessor.logprobs.map (· ++ more) ∧
      (reqState.logprobsProcessor.logprobs.isSome = true → more.length = output.newTokenIds.length) ∧
      Updated reqState.detokenizer digested.1.detokenizer output.newTokenIds stopString ∧
      (digested.2.1 = none → stopString = none) ∧
      (stopString = none → digested.2.1 = output.finishReason) ∧
      (output.newTokenIds = [] → stopString = none) ∧
      HandedOut digested.1 (sentCount reqState) taken held := by
  obtain ⟨processor, more, done, sameCumulative, grows, length⟩ := updateFromOutput_grows tokenizer cumulative promised
  have updated := update_updated tokenizer.decodeNext reqState.detokenizer output.newTokenIds
    (output.finishReason = some .stop) holdsBack
  have stops := update_stopString tokenizer.decodeNext reqState.detokenizer output.newTokenIds
    (output.finishReason = some .stop)
  have silent : output.newTokenIds = [] → (reqState.detokenizer.update tokenizer.decodeNext
      output.newTokenIds (output.finishReason = some .stop)).2 = none := by
    intro nothing
    rw [nothing]
    unfold IncrementalDetokenizer.update
    split <;> rfl
  generalize isUpdate : reqState.detokenizer.update tokenizer.decodeNext output.newTokenIds
    (output.finishReason = some .stop) = update at *
  have appended := outputTokenIds_append handed.prompt updated.settings.promptLen updated.tokenIds
  have after : HandedOut { reqState with detokenizer := update.1, logprobsProcessor := processor }
      (sentCount reqState) taken held := by
    constructor
    case text => rw [handed.text, updated.handedOut]
    case tokens =>
      rw [handed.tokens, appended, take_append_of_le_length handed.sent]
    case logprobs =>
      rw [handed.logprobs]
      cases list : reqState.logprobsProcessor.logprobs with
      | none => simp [grows, list]
      | some entries =>
        have counted := handed.counted entries list
        have enough := handed.sent
        simp only [grows, list, map_some, getD_some]
        rw [take_append_of_le_length (by omega)]
    case plain =>
      intro noDecoder
      have plain := updated.settings.decoder.mp noDecoder
      rw [updated.plain plain]
      exact handed.plain plain
    case prompt =>
      have prompt := handed.prompt
      simp only [updated.settings.promptLen, updated.tokenIds, length_append]
      omega
    case sent =>
      have sent := handed.sent
      simp only [appended, length_append]
      omega
    case counted =>
      intro list is
      simp only [grows, map_eq_some_iff] at is
      obtain ⟨entries, isEntries, rfl⟩ := is
      have counted := handed.counted entries isEntries
      have added := length (by rw [isEntries]; rfl)
      simp only [appended, length_append]
      omega
    case single => exact handed.single
    case shared =>
      intro completion waits isShared
      obtain ⟨isList, empty⟩ := handed.shared completion waits isShared
      by_cases nothing : output.newTokenIds = []
      · cases list : reqState.logprobsProcessor.logprobs with
        | none => simp [grows, list, isList]
        | some entries =>
          have none_ : more = [] := by
            apply length_eq_zero_iff.mp
            rw [length (by rw [list]; rfl), nothing]
            rfl
          rw [list] at isList empty
          simp only [grows, list, none_, append_nil, map_some]
          exact ⟨isList, empty⟩
      · have noList := quiet nothing completion waits isShared
        rw [isList] at noList
        simp [grows, noList, isList]
    case asked =>
      intro completion waits
      rw [handed.asked completion waits]
      simp [grows]
  have digest : ∃ digested, reqState.digest tokenizer output = some digested ∧
      digested.1 = { reqState with detokenizer := update.1, logprobsProcessor := processor } ∧
      (digested.2.1 = none → update.2 = none) ∧
      (update.2 = none → digested.2.1 = output.finishReason) := by
    simp only [RequestState.digest, isUpdate, done, bind_eq_bind, bind_some]
    split
    · rename_i found
      exact ⟨_, rfl, rfl, by simp, by simp [found]⟩
    · rename_i unmatched
      refine ⟨_, rfl, rfl, ?_, fun _ => rfl⟩
      intro _
      cases stopString : update.2 with
      | none => rfl
      | some chars =>
        cases chars with
        | nil => exact absurd (stops [] stopString) reqState.detokenizer.stop.nonempty
        | cons first rest => exact absurd stopString (unmatched first rest)
  obtain ⟨digested, isDigested, state, unstopped, reason⟩ := digest
  refine ⟨digested, more, update.2, isDigested, ?_⟩
  rw [state]
  exact ⟨rfl, sameCumulative, grows, length, updated, unstopped, reason, silent, after⟩

end VllmDcu.DeltaStreams

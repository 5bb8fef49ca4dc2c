import VllmDcu.Requests
import Mathlib.Data.Fintype.EquivFin

/-! Continued streaming sessions against fresh requests. A session that takes its
next chunk should go on as a request would whose prompt is the computed tokens
followed by the chunk and whose limits are the update's: the same fields, and the
same reports for every sequence of sampled tokens. -/
namespace VllmDcu.SessionRefinement
open Requests List Option Function
variable {Digest : Type}

/-! Appending sampled tokens and checking for a stop. -/

/-- The loop of `_update_request_with_output`: the tokens that are left after the
stop, whether there was one, and the request. -/
def updateRequestWithOutput (maxModelLen : Nat) (request : Request Digest) :
    List Token → Option (List Token × Bool × Request Digest)
  | [] => some ([], false, request)
  | outputTokenId :: rest =>
    match checkStop (request.appendOutputTokenIds [outputTokenId]) maxModelLen with
    | none => none
    | some (true, stopped) => some ([outputTokenId], true, stopped)
    | some (false, continued) =>
      (updateRequestWithOutput maxModelLen continued rest).map fun (kept, stopped, updated) =>
        (outputTokenId :: kept, stopped, updated)

/-- What an `EngineCoreOutput` says about the sampled tokens of a request. -/
structure Reported where
  newTokenIds : List Token
  finishReason : Option RequestStatus
  stopReason : Option StopReason
  deriving DecidableEq

def report (newTokenIds : List Token) (stopped : Bool) (request : Request Digest) : Reported :=
  { newTokenIds := newTokenIds
    finishReason := if stopped then some request.status else none
    stopReason := request.stopReason }

/-- The reports of a request for the outputs of successive steps, up to its stop.
A step without new tokens is not reported. -/
def appendStopRun (maxModelLen : Nat) (request : Request Digest) :
    List (List Token) → Option (List Reported)
  | [] => some []
  | [] :: rest => appendStopRun maxModelLen request rest
  | newTokenIds :: rest =>
    match updateRequestWithOutput maxModelLen request newTokenIds with
    | none => none
    | some (kept, true, stopped) => some [report kept true stopped]
    | some (kept, false, continued) =>
      (appendStopRun maxModelLen continued rest).map fun reports =>
        report kept false continued :: reports

/-- The fields that the append and stop steps read and report. -/
def stopInputs (request : Request Digest) :=
  (request.outputTokenIds, request.allTokenIds, request.samplingParams, request.poolingParams,
    request.maxTokens, request.status, request.stopReason)

variable (left right : Request Digest)

theorem append_stopInputs (tokenIds : List Token) (same : stopInputs left = stopInputs right) :
    stopInputs (left.appendOutputTokenIds tokenIds) =
      stopInputs (right.appendOutputTokenIds tokenIds) := by
  simp only [stopInputs, Prod.mk.injEq] at same
  simp [stopInputs, Request.appendOutputTokenIds, Request.updateBlockHashes, same]

variable (maxModelLen : Nat)

theorem checkStop_stopInputs (same : stopInputs left = stopInputs right) :
    (checkStop left maxModelLen).map (Prod.map id stopInputs) =
      (checkStop right maxModelLen).map (Prod.map id stopInputs) := by
  simp only [stopInputs, Prod.mk.injEq] at same
  obtain ⟨output, tokens, sampling, pooling, limit, status, reason⟩ := same
  have agree : stopInputs left = stopInputs right := by
    simp [stopInputs, output, tokens, sampling, pooling, limit, status, reason]
  simp only [checkStop, Request.numOutputTokens, Request.numTokens, output, tokens, sampling,
    pooling, limit]
  cases right.poolingParams with
  | some params => rfl
  | none =>
    cases right.samplingParams with
    | none => rfl
    | some params =>
      by_cases few : right.outputTokenIds.length < params.minTokens
      · simp [few, agree]
      · cases right.outputTokenIds.getLast? with
        | none => simp [few]
        | some lastTokenId =>
          by_cases eos : some lastTokenId = params.eosTokenId
          · simp [few, eos, stopInputs, reason]
          · by_cases listed : lastTokenId ∈ params.stopTokenIds
            · simp [few, eos, listed, stopInputs]
            · by_cases capped : right.allTokenIds.length ≥ maxModelLen ∨
                  right.outputTokenIds.length ≥ right.maxTokens
              · simp [few, eos, listed, capped, stopInputs, reason]
              · cases detection : params.repetitionDetection with
                | none => simp [few, eos, listed, capped, detection, agree]
                | some repetition =>
                  by_cases repeats : checkSequenceRepetition right.outputTokenIds repetition = true
                  · simp [few, eos, listed, capped, detection, repeats, stopInputs]
                  · simp [few, eos, listed, capped, detection, repeats, agree]

/-- What is left of an output when everything else about the request is forgotten. -/
def outcome (result : List Token × Bool × Request Digest) :=
  (result.1, result.2.1, stopInputs result.2.2)

theorem updateRequestWithOutput_stopInputs (left right : Request Digest) (newTokenIds : List Token)
    (same : stopInputs left = stopInputs right) :
    (updateRequestWithOutput maxModelLen left newTokenIds).map outcome =
      (updateRequestWithOutput maxModelLen right newTokenIds).map outcome := by
  induction newTokenIds generalizing left right with
  | nil => simp [updateRequestWithOutput, outcome, same]
  | cons outputTokenId rest ih =>
    have checks := checkStop_stopInputs _ _ maxModelLen
      (append_stopInputs left right [outputTokenId] same)
    simp only [updateRequestWithOutput]
    revert checks
    cases checkStop (left.appendOutputTokenIds [outputTokenId]) maxModelLen with
    | none =>
      cases checkStop (right.appendOutputTokenIds [outputTokenId]) maxModelLen with
      | none => simp
      | some rightCheck => simp
    | some leftCheck =>
      cases checkStop (right.appendOutputTokenIds [outputTokenId]) maxModelLen with
      | none => simp
      | some rightCheck =>
        obtain ⟨leftStop, leftNext⟩ := leftCheck
        obtain ⟨rightStop, rightNext⟩ := rightCheck
        simp only [map_some, Prod.map_apply, id, some.injEq, Prod.mk.injEq]
        rintro ⟨rfl, next⟩
        cases leftStop with
        | true => simp [outcome, next]
        | false =>
          have tails := congrArg
            (Option.map fun (kept, stopped, inputs) => (outputTokenId :: kept, stopped, inputs))
            (ih leftNext rightNext next)
          simpa [Option.map_map, comp_def, outcome] using tails

theorem report_stopInputs {newTokenIds : List Token} {stopped : Bool}
    (same : stopInputs left = stopInputs right) :
    report newTokenIds stopped left = report newTokenIds stopped right := by
  simp only [stopInputs, Prod.mk.injEq] at same
  simp [report, same]

/-- Requests that agree on those fields report the same for every sequence of outputs. -/
theorem appendStopRun_stopInputs (left right : Request Digest) (outputs : List (List Token))
    (same : stopInputs left = stopInputs right) :
    appendStopRun maxModelLen left outputs = appendStopRun maxModelLen right outputs := by
  induction outputs generalizing left right with
  | nil => rfl
  | cons newTokenIds rest ih =>
    cases newTokenIds with
    | nil =>
      exact ih left right same
    | cons outputTokenId tail =>
      have outcomes := updateRequestWithOutput_stopInputs maxModelLen left right
        (outputTokenId :: tail) same
      simp only [appendStopRun]
      revert outcomes
      cases updateRequestWithOutput maxModelLen left (outputTokenId :: tail) with
      | none =>
        cases updateRequestWithOutput maxModelLen right (outputTokenId :: tail) with
        | none => simp
        | some rightResult => simp
      | some leftResult =>
        cases updateRequestWithOutput maxModelLen right (outputTokenId :: tail) with
        | none => simp
        | some rightResult =>
          obtain ⟨leftKept, leftStop, leftNext⟩ := leftResult
          obtain ⟨rightKept, rightStop, rightNext⟩ := rightResult
          simp only [map_some, some.injEq, outcome, Prod.mk.injEq]
          rintro ⟨rfl, rfl, next⟩
          cases leftStop with
          | true => simp [report_stopInputs leftNext rightNext next]
          | false =>
            simp [report_stopInputs leftNext rightNext next, ih leftNext rightNext next]

/-! The fresh request and the refinement. -/

def computedTokens (session : Request Digest) : List Token :=
  session.allTokenIds.take (sliceBound session.numTokens session.numComputedTokens)

/-- A request for the computed tokens and the chunk. The features of the chunk
stand where the chunk stands in that prompt. -/
def freshArgs (session : Request Digest) (update : StreamingUpdate) : RequestArgs Digest where
  requestId := session.requestId
  promptTokenIds := some (computedTokens session ++ update.promptTokenIds.getD [])
  samplingParams := update.samplingParams
  poolingParams := session.poolingParams
  clientIndex := session.clientIndex
  arrivalTime := update.arrivalTime
  promptEmbeds := session.promptEmbeds
  mmFeatures := session.mmFeatures ++
    update.mmFeatures.map (shiftFeature (computedTokens session).length)
  loraRequest := session.loraRequest
  cacheSalt := session.cacheSalt
  priority := session.priority
  structuredOutput := session.structuredOutputRequest.isSome
  blockHasher := session.blockHasher
  resumable := session.resumable

def freshRequest (session : Request Digest) (update : StreamingUpdate) : Request Digest :=
  (Request.create (freshArgs session update) update.maxTokens session.structuredOutputRequest
    .waiting).updateBlockHashes

structure Refines (maxModelLen : Nat) (session fresh : Request Digest) : Prop where
  prompt : session.promptTokenIds = fresh.promptTokenIds
  tokens : session.allTokenIds = fresh.allTokenIds
  count : session.numPromptTokens = fresh.numPromptTokens
  noOutput : session.outputTokenIds = []
  sampling : session.samplingParams = fresh.samplingParams
  limit : session.maxTokens = fresh.maxTokens
  features : session.mmFeatures = fresh.mmFeatures
  runs : ∀ outputs, appendStopRun maxModelLen session outputs = appendStopRun maxModelLen fresh outputs

/-- The update has the session's own limit, the whole prompt of the session has been
computed, and no stop reason of an earlier chunk is left. -/
structure Continuable (session : Request Digest) (update : StreamingUpdate) : Prop where
  limit : update.maxTokens = session.maxTokens
  prompt : session.promptTokenIds.getD [] <+: computedTokens session
  reason : session.poolingParams = none → update.samplingParams.isSome = true →
    session.stopReason = none

/-! A token that no stop list names leaves the stop reason as it is. -/

theorem repetitionFrom_short (tokenIds : List Token) (minCount : Nat) (patterns : List Nat)
    (long : ∀ patternLen ∈ patterns, tokenIds.length < patternLen * minCount) :
    repetitionFrom tokenIds minCount patterns = false := by
  cases patterns with
  | nil => rfl
  | cons patternLen rest =>
    have first := long patternLen mem_cons_self
    simp [repetitionFrom, first]

theorem checkSequenceRepetition_single (token : Token) (params : RepetitionDetectionParams) :
    checkSequenceRepetition [token] params = false := by
  have least : 1 ≤ if params.minPatternSize = 0 then 1 else params.minPatternSize := by
    split
    · exact Nat.le_refl 1
    · omega
  unfold checkSequenceRepetition
  generalize (if params.minPatternSize = 0 then 1 else params.minPatternSize) = minPatternSize at least
  by_cases unusable : params.maxPatternSize = 0 ∨ params.minCount < 2 ∨
      minPatternSize > params.maxPatternSize
  · rw [if_pos unusable]
  · rw [if_neg unusable]
    apply repetitionFrom_short
    -- One token is shorter than two copies of any pattern.
    intro patternLen member
    have lower : minPatternSize ≤ patternLen := (mem_range'_1.mp member).1
    have copies : 1 * 2 ≤ patternLen * params.minCount :=
      Nat.mul_le_mul (least.trans lower) (by omega)
    exact copies

variable (request : Request Digest)

theorem checkStop_unlisted (maxModelLen : Nat) (params : SamplingParams) (token : Token)
    (samples : request.poolingParams = none) (sampling : request.samplingParams = some params)
    (first : request.outputTokenIds = [token]) (unlisted : token ∉ params.stopTokenIds) :
    ∃ stop checked, checkStop request maxModelLen = some (stop, checked) ∧
      checked.stopReason = request.stopReason := by
  simp only [checkStop, samples, sampling, first, getLast?_singleton,
    checkSequenceRepetition_single, if_neg unlisted, Bool.false_eq_true, ↓reduceIte]
  split_ifs
  · exact ⟨false, request, rfl, rfl⟩
  · exact ⟨true, _, rfl, rfl⟩
  · exact ⟨true, _, rfl, rfl⟩
  · refine ⟨false, request, ?_, rfl⟩
    cases params.repetitionDetection with
    | none => rfl
    | some repetition => rfl

theorem firstReport_stopReason (maxModelLen : Nat) {params : SamplingParams} {token : Token}
    (samples : request.poolingParams = none) (sampling : request.samplingParams = some params)
    (noOutput : request.outputTokenIds = []) (unlisted : token ∉ params.stopTokenIds) :
    ∃ reported, appendStopRun maxModelLen request [[token]] = some [reported] ∧
      reported.stopReason = request.stopReason := by
  obtain ⟨stop, checked, result, reason⟩ :=
    checkStop_unlisted (request.appendOutputTokenIds [token]) maxModelLen params token samples
      sampling (by simp [Request.appendOutputTokenIds, Request.updateBlockHashes, noOutput]) unlisted
  cases stop with
  | true =>
    refine ⟨report [token] true checked, ?_, reason⟩
    simp [appendStopRun, updateRequestWithOutput, result]
  | false =>
    refine ⟨report [token] false checked, ?_, reason⟩
    simp [appendStopRun, updateRequestWithOutput, result]

/-! Sessions as their steps leave them. -/

/-- The prompt is counted. -/
def Counted (session : Request Digest) : Prop :=
  ∀ promptTokenIds, session.promptTokenIds = some promptTokenIds →
    session.numPromptTokens = promptTokenIds.length

/-- Scheduling, preemption and output accounting touch neither the prompt nor its
count; they may change everything else. -/
inductive SessionStep (maxModelLen : Nat) : Request Digest → Request Digest → Prop where
  | updateRequestWithOutput {session updated : Request Digest} (newTokenIds : List Token)
      (kept : List Token) (stopped : Bool)
      (result : updateRequestWithOutput maxModelLen session newTokenIds =
        some (kept, stopped, updated)) :
      SessionStep maxModelLen session updated
  | handleStopped {session handled : Request Digest} (finished : Bool)
      (result : session.handleStopped = some (finished, handled)) :
      SessionStep maxModelLen session handled
  | updateAsSession {session continued : Request Digest} (update : StreamingUpdate)
      (result : session.updateAsSession update = some continued) :
      SessionStep maxModelLen session continued
  | elsewhere {session session' : Request Digest}
      (prompt : session'.promptTokenIds = session.promptTokenIds)
      (count : session'.numPromptTokens = session.numPromptTokens) :
      SessionStep maxModelLen session session'

variable (session : Request Digest)

theorem counted_congr (session' : Request Digest)
    (prompt : session'.promptTokenIds = session.promptTokenIds)
    (count : session'.numPromptTokens = session.numPromptTokens) (counted : Counted session) :
    Counted session' := by
  intro promptTokenIds given
  rw [count]
  exact counted promptTokenIds (prompt.symm.trans given)

theorem checkStop_prompt {checked : Request Digest} {maxModelLen : Nat} {stop : Bool}
    (result : checkStop request maxModelLen = some (stop, checked)) :
    checked.promptTokenIds = request.promptTokenIds ∧
      checked.numPromptTokens = request.numPromptTokens := by
  rcases checkStop_cases request checked maxModelLen stop result with
    ⟨_, rfl⟩ | ⟨_, status, reason, _, rfl⟩
  · exact ⟨rfl, rfl⟩
  · exact ⟨rfl, rfl⟩

theorem updateRequestWithOutput_prompt (updated : Request Digest) (newTokenIds kept : List Token)
    (stopped : Bool)
    (result : updateRequestWithOutput maxModelLen request newTokenIds =
      some (kept, stopped, updated)) :
    updated.promptTokenIds = request.promptTokenIds ∧
      updated.numPromptTokens = request.numPromptTokens := by
  induction newTokenIds generalizing request kept with
  | nil =>
    simp only [updateRequestWithOutput, some.injEq, Prod.mk.injEq] at result
    rw [← result.2.2]
    exact ⟨rfl, rfl⟩
  | cons outputTokenId rest ih =>
    simp only [updateRequestWithOutput] at result
    split at result
    · contradiction
    · rename_i last checked
      simp only [some.injEq, Prod.mk.injEq] at result
      rw [← result.2.2]
      exact checkStop_prompt (request.appendOutputTokenIds [outputTokenId]) checked
    · rename_i next checked
      obtain ⟨tail, updatedTail, same⟩ := map_eq_some_iff.mp result
      obtain ⟨tailKept, tailStopped, tailUpdated⟩ := tail
      obtain ⟨_, rfl, rfl⟩ := same
      have first := checkStop_prompt (request.appendOutputTokenIds [outputTokenId]) checked
      have later := ih next tailKept updatedTail
      exact ⟨later.1.trans first.1, later.2.trans first.2⟩

/-- Everything the update does to the fields a fresh request would set. -/
structure Continued (session : Request Digest) (promptTokenIds : List Token)
    (update : StreamingUpdate) (continued : Request Digest) : Prop where
  prompt : continued.promptTokenIds =
    some (promptTokenIds ++ (computedTokens session).drop session.numPromptTokens ++
      update.promptTokenIds.getD [])
  tokens : continued.allTokenIds = computedTokens session ++ update.promptTokenIds.getD []
  count : continued.numPromptTokens = (continued.promptTokenIds.getD []).length
  output : continued.outputTokenIds = []
  sampling : continued.samplingParams = update.samplingParams
  pooling : continued.poolingParams = session.poolingParams
  features : continued.mmFeatures = session.mmFeatures ++
    update.mmFeatures.map (shiftFeature (computedTokens session).length)
  status : continued.status = .waiting
  -- The update carries a limit and the session may hold a stop reason; neither is set.
  limit : continued.maxTokens = session.maxTokens
  reason : continued.stopReason = session.stopReason

variable (continued : Request Digest) (update : StreamingUpdate)

theorem updateAsSession_continued (result : session.updateAsSession update = some continued) :
    ∃ promptTokenIds, session.promptTokenIds = some promptTokenIds ∧
      Continued session promptTokenIds update continued := by
  unfold Request.updateAsSession at result
  cases prompt : session.promptTokenIds with
  | none => simp [prompt] at result
  | some promptTokenIds =>
    simp only [prompt, some.injEq] at result
    subst result
    exact ⟨promptTokenIds, rfl, rfl, rfl, rfl, rfl, rfl, rfl, rfl, rfl, rfl, rfl⟩

theorem updateAsSession_counted (result : session.updateAsSession update = some continued) :
    Counted continued := by
  obtain ⟨promptTokenIds, _, fields⟩ := updateAsSession_continued session continued update result
  intro given same
  rw [fields.count, same]
  rfl

theorem step_counted (session' : Request Digest) (step : SessionStep maxModelLen session session')
    (counted : Counted session) :
    Counted session' := by
  cases step with
  | updateRequestWithOutput newTokenIds kept stopped result =>
    obtain ⟨prompt, count⟩ := updateRequestWithOutput_prompt maxModelLen session session'
      newTokenIds kept stopped result
    exact counted_congr session session' prompt count counted
  | handleStopped finished result =>
    unfold Request.handleStopped at result
    split at result
    · simp only [some.injEq, Prod.mk.injEq] at result
      rwa [← result.2]
    · split at result
      · rename_i update rest queue
        cases update with
        | none =>
          simp only [some.injEq, Prod.mk.injEq] at result
          rw [← result.2]
          exact counted_congr session _ rfl rfl counted
        | some update =>
          obtain ⟨continued, updated, same⟩ := map_eq_some_iff.mp result
          rw [← (Prod.mk.inj same).2]
          exact updateAsSession_counted _ continued update updated
      · simp only [some.injEq, Prod.mk.injEq] at result
        rw [← result.2]
        exact counted_congr session _ rfl rfl counted
  | updateAsSession update result => exact updateAsSession_counted session session' update result
  | elsewhere prompt count => exact counted_congr session session' prompt count counted

theorem init_counted (args : RequestArgs Digest) (request : Request Digest)
    (created : Request.init args = some request) : Counted request := by
  obtain ⟨maxTokens, structured, status, rfl⟩ := init_cases created
  intro promptTokenIds given
  have same : args.promptTokenIds = some promptTokenIds := given
  simp [Request.create, Request.updateBlockHashes, lengthFromPromptTokenIdsOrEmbeds, same]

theorem run_counted (args : RequestArgs Digest) (created session : Request Digest)
    (init : Request.init args = some created)
    (run : Relation.ReflTransGen (SessionStep maxModelLen) created session) : Counted session := by
  induction run with
  | refl => exact init_counted args created init
  | tail _ step ih => exact step_counted maxModelLen _ _ step ih

/-! The refinement. -/

theorem freshRequest_stopInputs (promptTokenIds : List Token)
    (fields : Continued session promptTokenIds update continued)
    (limit : update.maxTokens = session.maxTokens) (reason : session.stopReason = none) :
    stopInputs continued = stopInputs (freshRequest session update) := by
  simp only [stopInputs, Prod.mk.injEq]
  exact ⟨fields.output, fields.tokens, fields.sampling, fields.pooling,
    fields.limit.trans limit.symm, fields.status, fields.reason.trans reason⟩

/-- A request that `check_stop` does not accept has no run with a sampled token. -/
theorem appendStopRun_unsampled
    (unsampled : ¬ (request.poolingParams = none ∧ request.samplingParams.isSome = true))
    (outputs : List (List Token)) :
    appendStopRun maxModelLen request outputs =
      if outputs.all List.isEmpty then some [] else none := by
  induction outputs with
  | nil => rfl
  | cons newTokenIds rest ih =>
    cases newTokenIds with
    | nil => simp [appendStopRun, ih]
    | cons outputTokenId tail =>
      have refused : checkStop (request.appendOutputTokenIds [outputTokenId]) maxModelLen = none := by
        cases pooling : request.poolingParams with
        | some params =>
          simp [checkStop, Request.appendOutputTokenIds, Request.updateBlockHashes, pooling]
        | none =>
          cases sampling : request.samplingParams with
          | some params => exact absurd ⟨pooling, by simp [sampling]⟩ unsampled
          | none =>
            simp [checkStop, Request.appendOutputTokenIds, Request.updateBlockHashes, sampling]
      simp [appendStopRun, updateRequestWithOutput, refused]

/-- Equal reports after the first token show an earlier stop reason. -/
theorem runs_stopReason (left right : Request Digest) (params : SamplingParams)
    (leftSamples : left.poolingParams = none ∧ left.samplingParams = some params)
    (rightSamples : right.poolingParams = none ∧ right.samplingParams = some params)
    (noOutput : left.outputTokenIds = [] ∧ right.outputTokenIds = [])
    (runs : ∀ outputs, appendStopRun maxModelLen left outputs =
      appendStopRun maxModelLen right outputs) :
    left.stopReason = right.stopReason := by
  obtain ⟨token, fresh⟩ := Infinite.exists_notMem_finset params.stopTokenIds.toFinset
  have unlisted : token ∉ params.stopTokenIds := by simpa using fresh
  obtain ⟨leftReport, leftRun, leftReason⟩ := firstReport_stopReason left maxModelLen
    leftSamples.1 leftSamples.2 noOutput.1 unlisted
  obtain ⟨rightReport, rightRun, rightReason⟩ := firstReport_stopReason right maxModelLen rightSamples.1 rightSamples.2 noOutput.2 unlisted
  have same := runs [[token]]
  simp only [leftRun, rightRun, some.injEq, cons.injEq, and_true] at same
  rw [← leftReason, ← rightReason, same]

/-- After a streaming update the session refines the fresh request exactly when the
update brings the session's own limit, the prompt has been computed, and no
earlier stop reason is left. -/
theorem session_refines_iff (maxModelLen : Nat) (args : RequestArgs Digest)
    (created session continued : Request Digest) (update : StreamingUpdate)
    (init : Request.init args = some created)
    (run : Relation.ReflTransGen (SessionStep maxModelLen) created session)
    (result : session.updateAsSession update = some continued) :
    Refines maxModelLen continued (freshRequest session update) ↔ Continuable session update := by
  obtain ⟨promptTokenIds, prompt, fields⟩ := updateAsSession_continued session continued update result
  have counted : session.numPromptTokens = promptTokenIds.length :=
    run_counted maxModelLen args created session init run promptTokenIds prompt
  have samePrompt : continued.promptTokenIds = (freshRequest session update).promptTokenIds ↔
      promptTokenIds <+: computedTokens session := by
    rw [fields.prompt, counted, prefix_iff_eq_append]
    change some _ = some _ ↔ _
    rw [some.injEq, append_left_inj]
  have freshCount : (freshRequest session update).numPromptTokens =
      ((freshRequest session update).promptTokenIds.getD []).length := rfl
  constructor
  · intro refines
    refine ⟨?_, ?_, ?_⟩
    · exact (fields.limit.symm.trans refines.limit).symm
    · rw [prompt]
      exact samePrompt.mp refines.prompt
    · intro samples given
      obtain ⟨params, sampling⟩ := isSome_iff_exists.mp given
      have reason := runs_stopReason maxModelLen continued (freshRequest session update) params
        ⟨fields.pooling.trans samples, fields.sampling.trans sampling⟩ ⟨samples, sampling⟩
        ⟨fields.output, rfl⟩ refines.runs
      exact fields.reason.symm.trans reason
  · intro continuable
    have computed : promptTokenIds <+: computedTokens session := by
      have := continuable.prompt
      rwa [prompt] at this
    refine ⟨samePrompt.mpr computed, fields.tokens, ?_, fields.output, fields.sampling,
      fields.limit.trans continuable.limit.symm, fields.features, ?_⟩
    · rw [fields.count, samePrompt.mpr computed, freshCount]
    · intro outputs
      by_cases samples : session.poolingParams = none ∧ update.samplingParams.isSome = true
      · exact appendStopRun_stopInputs maxModelLen _ _ outputs
          (freshRequest_stopInputs session continued update promptTokenIds fields continuable.limit
            (continuable.reason samples.1 samples.2))
      · rw [appendStopRun_unsampled, appendStopRun_unsampled]
        · exact samples
        · rwa [fields.pooling, fields.sampling]

/-! A session limited to one output token per chunk whose second chunk asks for more. -/

def sampleOne : SamplingParams := ⟨1, 0, none, [], none, none⟩

def singleArgs : RequestArgs Unit where
  requestId := 0
  promptTokenIds := some [1, 2, 3]
  samplingParams := some sampleOne
  poolingParams := none
  clientIndex := 0
  arrivalTime := 0
  promptEmbeds := none
  mmFeatures := []
  loraRequest := none
  cacheSalt := none
  priority := 0
  structuredOutput := false
  blockHasher := none
  resumable := true

def secondChunk (maxTokens : Nat) : StreamingUpdate where
  mmFeatures := []
  promptTokenIds := some [4, 5]
  maxTokens := maxTokens
  arrivalTime := 1
  samplingParams := some { sampleOne with maxTokens := maxTokens }

def openedSession : Request Unit := (Request.init singleArgs).get rfl

def computedSession : Request Unit :=
  { openedSession with status := .running, numComputedTokens := 3, streamingQueue := some [] }

/-- The first chunk has stopped at its one output token. -/
def cappedSession : Request Unit :=
  { computedSession.appendOutputTokenIds [9] with status := .finishedLengthCapped }

def continuedSession (maxTokens : Nat) : Request Unit :=
  (cappedSession.updateAsSession (secondChunk maxTokens)).get rfl

theorem capped_run : Relation.ReflTransGen (SessionStep 100) openedSession cappedSession := by
  have scheduled : SessionStep 100 openedSession computedSession := .elsewhere rfl rfl
  have sampled : SessionStep 100 computedSession cappedSession :=
    .updateRequestWithOutput [9] [9] true rfl
  exact (Relation.ReflTransGen.single scheduled).tail sampled

theorem secondChunk_refines :
    Refines 100 (continuedSession 1) (freshRequest cappedSession (secondChunk 1)) := by
  apply (session_refines_iff 100 singleArgs openedSession cappedSession (continuedSession 1)
    (secondChunk 1) rfl capped_run rfl).mpr
  exact ⟨rfl, ⟨[], rfl⟩, fun _ _ => rfl⟩

/-- With a limit of three the fresh request reports three tokens where the session
still stops at its first. -/
theorem longerChunk_not_refines :
    ¬ ∀ (session continued : Request Unit) (update : StreamingUpdate),
      Relation.ReflTransGen (SessionStep 100) openedSession session →
        session.updateAsSession update = some continued →
          Refines 100 continued (freshRequest session update) := by
  intro refines
  have stops := (refines cappedSession (continuedSession 3) (secondChunk 3) capped_run rfl).runs
    [[7], [8], [9]]
  revert stops
  decide

end VllmDcu.SessionRefinement

import VllmDcu.DeltaStreams

/-! The DELTA run and the CUMULATIVE run of one request side by side. -/
namespace VllmDcu.DeltaRuns
open Dict RequestOutputs Detokenizer OutputProcessing DeltaText StreamPieces DeltaStreams
open List Option

variable {State Entry Prob Logprob Experts Params : Type}

/-- A collector of real completions, at most one of each index. -/
structure Holds (queue : RequestOutputCollector Prob Logprob Experts Params) (aggregate : Bool) :
    Prop where
  aggregate : queue.aggregate = aggregate
  real : queue.PendingReal
  single : ∀ index, (waiting index queue).length ≤ 1

variable (index : Nat)

theorem refresh_holds (logprobs : Option (List Logprob)) {aggregate : Bool}
    {queue : RequestOutputCollector Prob Logprob Experts Params} (holds : Holds queue aggregate) :
    Holds (refreshLogprobs index logprobs queue) aggregate where
  aggregate := holds.aggregate
  real := (refreshLogprobs_same index logprobs queue).real holds.real
  single := by
    intro other
    rw [refresh_pieces, length_map]
    exact holds.single other

variable (queue : RequestOutputCollector Prob Logprob Experts Params)

theorem put_holds {aggregate : Bool} {next result : CompletionOutput Prob Logprob Experts}
    (finished : Bool) (kvTransferParams : Option Params) (holds : Holds queue aggregate)
    (join : joined aggregate (waiting next.index queue).head? next = some result) :
    ∃ after, queue.put ⟨[some next], finished, kvTransferParams⟩ = some after ∧
      Holds after aggregate ∧
      (∀ other, other ≠ next.index → waiting other after = waiting other queue) ∧
      waiting next.index after = [result] := by
  obtain ⟨after, put, sameAggregate, real, others, mine⟩ := put_pieces queue holds.real (holds.single next.index) (by rw [holds.aggregate]; exact join)
  refine ⟨after, put, ⟨sameAggregate.trans holds.aggregate, real, ?_⟩, others, mine⟩
  intro index
  by_cases same : index = next.index
  · rw [same, mine]
    exact Nat.le_refl 1
  · rw [others index same]
    exact holds.single index

/-- What waits of a request shows the processor's list already. -/
def UpToDate (index : Nat) (logprobs : Option (List Logprob))
    (queue : RequestOutputCollector Prob Logprob Experts Params) : Prop :=
  ∀ completion ∈ waiting index queue, completion.sharedLogprobs = true →
    completion.logprobs = logprobs

theorem refresh_upToDate (logprobs : Option (List Logprob))
    (queue : RequestOutputCollector Prob Logprob Experts Params)
    (upToDate : UpToDate index logprobs queue) (other : Nat) :
    waiting other (refreshLogprobs index logprobs queue) = waiting other queue := by
  by_cases same : other = index
  · subst same
    rw [refresh_pieces]
    conv => rhs; rw [← List.map_id (waiting other queue)]
    apply map_congr_left
    intro completion waits
    unfold showShared
    split
    · rename_i shared
      rw [← upToDate completion waits shared.2]
      rfl
    · rfl
  · exact refresh_other index same

variable (reqState : RequestState State Prob Logprob)

theorem extendShared_upToDate (queue : RequestOutputCollector Prob Logprob Experts Params)
    (upToDate : UpToDate reqState.requestIndex reqState.logprobsProcessor.logprobs queue) :
    reqState.extendShared queue = reqState := by
  have same : (sharedList reqState.requestIndex queue).or reqState.logprobsProcessor.logprobs =
      reqState.logprobsProcessor.logprobs := by
    rw [sharedList_pieces]
    cases found : (waiting reqState.requestIndex queue).findSome? fun completion =>
        if completion.sharedLogprobs = true then completion.logprobs else none with
    | none => rfl
    | some list =>
      obtain ⟨completion, waits, is⟩ := exists_of_findSome?_eq_some found
      split at is
      · rename_i shared
        rw [← upToDate completion waits shared, is]
        rfl
      · cases is
  unfold RequestState.extendShared
  rw [same]

/-- A streaming parent lets go of a finished child. -/
def letGo (requestId : RequestId) (finished : Bool) (parent : ParentRequest Prob Logprob Experts) :
    ParentRequest Prob Logprob Experts :=
  { parent with childRequests :=
      if finished then parent.childRequests.erase requestId else parent.childRequests }

theorem makeRequestOutput_silent (parent : Option (ParentRequest Prob Logprob Experts))
    (newTokenIds : List Nat) {finishReason : Option FinishReason} (stopReason : Option StopReason)
    (kvTransferParams : Option Params) (routedExperts : Option Experts)
    (silent : reqState.sends finishReason.isSome = false) :
    reqState.makeRequestOutput parent newTokenIds finishReason stopReason kvTransferParams
      routedExperts = some (reqState, parent, none) := by
  simp [RequestState.makeRequestOutput, silent]

/-- A streaming request hands out the completion it makes, with a parent or without. -/
theorem makeRequestOutput_sent {parent : Option (ParentRequest Prob Logprob Experts)}
    {newTokenIds : List Nat} {finishReason : Option FinishReason} {stopReason : Option StopReason}
    (kvTransferParams : Option Params) {routedExperts : Option Experts}
    {next : CompletionOutput Prob Logprob Experts} {after : RequestState State Prob Logprob}
    (made : (reqState.sendTokens newTokenIds).2.newCompletionOutput
      (reqState.sendTokens newTokenIds).1 finishReason stopReason routedExperts = (next, after))
    (reason : next.finishReason = finishReason) (sends : reqState.sends finishReason.isSome = true)
    (streaming : ∀ held, parent = some held →
      held.outputKind ≠ .finalOnly ∧ reqState.requestId ∈ held.childRequests) :
    ∃ finished, reqState.makeRequestOutput parent newTokenIds finishReason stopReason
        kvTransferParams routedExperts =
      some (after, parent.map (letGo reqState.requestId finishReason.isSome),
        some ⟨[some next], finished, kvTransferParams⟩) := by
  simp only [RequestState.makeRequestOutput, sends, Bool.true_eq_false, ↓reduceIte, made]
  cases parent with
  | none => exact ⟨_, rfl⟩
  | some held =>
    obtain ⟨kind, listed⟩ := streaming held rfl
    have got := getOutputs_streaming held next kind listed
    simp only [CompletionOutput.finished, reason] at got
    simp only [got, bind_eq_bind, bind_some, map_some]
    exact ⟨_, rfl⟩

variable (tokenizer : Tokenizer State Entry Prob Logprob)
variable (processor : OutputProcessor State Prob Logprob Experts Params)
variable (output : EngineCoreOutput Entry Experts Params)

/-- An output of a known request, put together from its parts. -/
theorem processOutput_parts {reqState after : RequestState State Prob Logprob}
    {digested : RequestState State Prob Logprob × Option FinishReason × Option StopReason}
    {parent : Option (ParentRequest Prob Logprob Experts)}
    {made : Option (RequestOutput Prob Logprob Experts Params)}
    {queue : RequestOutputCollector Prob Logprob Experts Params}
    (known : processor.requestStates.get? output.requestId = some reqState)
    (digest : reqState.digest tokenizer output = some digested)
    (make : digested.1.makeRequestOutput processor.parent output.newTokenIds digested.2.1
      digested.2.2 output.kvTransferParams output.routedExperts = some (after, parent, made))
    (put : after.deliver (refreshAggregated parent (refreshLogprobs digested.1.requestIndex
      digested.1.logprobsProcessor.logprobs processor.queue)) made = some queue)
    (upToDate : UpToDate after.requestIndex after.logprobsProcessor.logprobs queue) :
    ∃ flag, processor.processOutput tokenizer output = some
      (if digested.2.1.isSome then
        OutputProcessor.freeCompleted
          ⟨processor.requestStates.set after.requestId after, parent, queue⟩ after
      else ⟨processor.requestStates.set after.requestId after, parent, queue⟩, flag) := by
  simp only [OutputProcessor.processOutput, known, digest, make, put, bind_eq_bind,
    bind_some, extendShared_upToDate after queue upToDate]
  split
  · exact ⟨_, rfl⟩
  · exact ⟨_, rfl⟩

/-- The next chunk of a session starts, or the session waits for one. -/
def nextChunk (reqState : RequestState State Prob Logprob) : RequestState State Prob Logprob :=
  match reqState.inputChunkQueue with
  | some (update :: rest) =>
    { reqState.applyStreamingUpdate update with inputChunkQueue := some rest }
  | _ => { reqState with inputChunkQueue := none }

/-- The state an output leaves: none for a request that has ended. -/
def outcome (after : RequestState State Prob Logprob) (finished : Bool) :
    Option (RequestState State Prob Logprob) :=
  if finished then if after.streamingInput then some (nextChunk after) else none else some after

theorem nextChunk_twin : twin (nextChunk reqState) = nextChunk (twin reqState) := by
  unfold nextChunk
  simp only [twin]
  split <;> rfl

theorem outcome_twin (after : RequestState State Prob Logprob) (finished : Bool) :
    (outcome after finished).map twin = outcome (twin after) finished := by
  unfold outcome
  cases finished with
  | false => rfl
  | true =>
    simp only [↓reduceIte, ← nextChunk_twin]
    change Option.map twin (if after.streamingInput = true then _ else _) =
      if after.streamingInput = true then _ else _
    split <;> rfl

/-! The two runs. -/

/-- The state of the completion `index` in the DELTA run. -/
structure Owned (config : StreamRequest State Entry Prob Logprob) (requestId : RequestId)
    (index : Nat) (reqState : RequestState State Prob Logprob) : Prop where
  requestId : reqState.requestId = requestId
  requestIndex : reqState.requestIndex = index
  outputKind : reqState.outputKind = .delta
  stop : reqState.detokenizer.stop = config.request.stop
  streaming : reqState.streamingInput = true → config.request.resumable = true
  logprobs : reqState.logprobsProcessor.logprobs.isSome = config.request.logprobs
  cumulative : reqState.logprobsProcessor.cumulativeLogprob.isSome =
    reqState.logprobsProcessor.logprobs.isSome

/-- The parent in the CUMULATIVE run. -/
def twinParent (parent : ParentRequest Prob Logprob Experts) : ParentRequest Prob Logprob Experts :=
  { parent with outputKind := .cumulative }

/-- The pieces of an index that the consumer has taken. -/
def takenOf (index : Nat) (got : List (RequestOutput Prob Logprob Experts Params)) :
    List (CompletionOutput Prob Logprob Experts) :=
  got.flatMap fun output => piecesOf index output.outputs

theorem pieces_eq (stream : Stream State Prob Logprob Experts Params) (index : Nat) :
    stream.pieces index = takenOf index stream.got ++ waiting index stream.processor.queue := by
  unfold Stream.pieces Stream.delivered takenOf waiting
  rw [flatMap_append]
  cases stream.processor.queue.output with
  | none => rfl
  | some output => simp

/-- What is left of a completion that has ended. -/
structure Ended (config : StreamRequest State Entry Prob Logprob)
    (delta cumulative : List (CompletionOutput Prob Logprob Experts)) : Prop where
  reassembles : Reassembles delta cumulative
  finished : config.request.resumable = false →
    ∃ last, cumulative.getLast? = some last ∧ last.finished = true

/-- The front end of the DELTA run against that of the CUMULATIVE run. -/
structure Tracks (config : StreamRequest State Entry Prob Logprob)
    (delta cumulative : Stream State Prob Logprob Experts Params) : Prop where
  added : cumulative.added = delta.added
  room : delta.added ≤ config.n
  states : ∀ id, cumulative.processor.requestStates.get? id =
    (delta.processor.requestStates.get? id).map twin
  owned : ∀ id reqState, delta.processor.requestStates.get? id = some reqState →
    ∃ index < delta.added, id = config.childId index ∧ Owned config id index reqState
  parent : cumulative.processor.parent = delta.processor.parent.map twinParent
  hasParent : delta.processor.parent.isSome = decide (1 < config.n)
  listed : ∀ held, delta.processor.parent = some held → held.outputKind = .delta ∧
    held.requestId = config.request.requestId ∧
    ∀ id, (delta.processor.requestStates.get? id).isSome = true → id ∈ held.childRequests
  deltaQueue : Holds delta.processor.queue true
  cumulativeQueue : Holds cumulative.processor.queue false
  fresh : ∀ index, delta.added ≤ index → delta.pieces index = [] ∧ cumulative.pieces index = []
  live : ∀ id reqState, delta.processor.requestStates.get? id = some reqState →
    Live reqState (takenOf reqState.requestIndex delta.got)
      (waiting reqState.requestIndex delta.processor.queue)
      (cumulative.pieces reqState.requestIndex).getLast?
  ended : ∀ index < delta.added, delta.processor.requestStates.get? (config.childId index) = none →
    Ended config (delta.pieces index) (cumulative.pieces index)

variable (config : StreamRequest State Entry Prob Logprob)

theorem childId_injective (left right : Nat) (leftLt : left < config.n) (rightLt : right < config.n)
    (same : config.childId left = config.childId right) : left = right := by
  unfold StreamRequest.childId at same
  by_cases many : 1 < config.n
  · rw [if_pos many, if_pos many] at same
    exact ParallelSampling.childReqId_injective same
  · omega

/-- One completion takes its turn: its state goes on or ends, and every other
completion keeps its state and its pieces. -/
theorem Tracks.turn {config : StreamRequest State Entry Prob Logprob}
    {delta cumulative : Stream State Prob Logprob Experts Params}
    (tracks : Tracks config delta cumulative) (id : RequestId) (index : Nat)
    (reqState : RequestState State Prob Logprob)
    (found : delta.processor.requestStates.get? id = some reqState)
    (inside : index < delta.added) (isId : id = config.childId index)
    (deltaNext cumulativeNext : OutputProcessor State Prob Logprob Experts Params)
    (after : Option (RequestState State Prob Logprob))
    (states : ∀ other, deltaNext.requestStates.get? other =
      if other = id then after else delta.processor.requestStates.get? other)
    (twins : ∀ other, cumulativeNext.requestStates.get? other =
      if other = id then after.map twin else cumulative.processor.requestStates.get? other)
    (finished : Bool)
    (parent : deltaNext.parent = delta.processor.parent.map (letGo id finished))
    (twinParents : cumulativeNext.parent = cumulative.processor.parent.map (letGo id finished))
    (open_ : after.isSome = true → config.n ≤ 1 ∨ finished = false)
    (deltaQueue : Holds deltaNext.queue true) (cumulativeQueue : Holds cumulativeNext.queue false)
    (deltaOthers : ∀ other, other ≠ index →
      waiting other deltaNext.queue = waiting other delta.processor.queue)
    (cumulativeOthers : ∀ other, other ≠ index →
      waiting other cumulativeNext.queue = waiting other cumulative.processor.queue)
    (goesOn : ∀ next, after = some next → Owned config id index next ∧
      Live next (takenOf index delta.got) (waiting index deltaNext.queue)
        (takenOf index cumulative.got ++ waiting index cumulativeNext.queue).getLast?)
    (ends : after = none → Ended config (takenOf index delta.got ++ waiting index deltaNext.queue)
      (takenOf index cumulative.got ++ waiting index cumulativeNext.queue)) :
    Tracks config { delta with processor := deltaNext }
      { cumulative with processor := cumulativeNext } := by
  have deltaPieces : ∀ other, other ≠ index →
      Stream.pieces { delta with processor := deltaNext } other = delta.pieces other := by
    intro other different
    rw [pieces_eq, pieces_eq, deltaOthers other different]
  have cumulativePieces : ∀ other, other ≠ index →
      Stream.pieces { cumulative with processor := cumulativeNext } other =
        cumulative.pieces other := by
    intro other different
    rw [pieces_eq, pieces_eq, cumulativeOthers other different]
  have within : ∀ other < delta.added, other < config.n := by
    have := tracks.room
    omega
  constructor
  case added => exact tracks.added
  case room => exact tracks.room
  case states =>
    intro other
    rw [twins, states]
    split
    · rfl
    · exact tracks.states other
  case owned =>
    intro other next isNext
    rw [states] at isNext
    split at isNext
    · rename_i same
      subst same
      exact ⟨index, inside, isId, (goesOn next isNext).1⟩
    · exact tracks.owned other next isNext
  case parent =>
    rw [parent, twinParents, tracks.parent]
    cases delta.processor.parent <;> rfl
  case hasParent =>
    rw [parent, isSome_map]
    exact tracks.hasParent
  case listed =>
    intro held isHeld
    rw [parent, map_eq_some_iff] at isHeld
    obtain ⟨before, isBefore, rfl⟩ := isHeld
    obtain ⟨kind, parentId, all⟩ := tracks.listed before isBefore
    refine ⟨kind, parentId, ?_⟩
    intro other still
    rw [states] at still
    have many : 1 < config.n := by
      have has := tracks.hasParent
      rw [isBefore] at has
      exact of_decide_eq_true has.symm
    by_cases same : other = id
    · rw [if_pos same] at still
      have unfinished : finished = false := by
        rcases open_ still with one | unfinished
        · omega
        · exact unfinished
      rw [unfinished, same]
      exact all id (by rw [found]; rfl)
    · rw [if_neg same] at still
      cases finished with
      | false => exact all other still
      | true => exact (mem_erase_of_ne same).mpr (all other still)
  case deltaQueue => exact deltaQueue
  case cumulativeQueue => exact cumulativeQueue
  case fresh =>
    intro other later
    have different : other ≠ index := by
      have : delta.added ≤ other := later
      omega
    rw [deltaPieces other different, cumulativePieces other different]
    exact tracks.fresh other later
  case live =>
    intro other next isNext
    rw [states] at isNext
    split at isNext
    · obtain ⟨owned, live⟩ := goesOn next isNext
      rw [owned.requestIndex, pieces_eq]
      exact live
    · rename_i different
      obtain ⟨otherIndex, otherLt, isOther, owned⟩ := tracks.owned other next isNext
      have apart : next.requestIndex ≠ index := by
        rw [owned.requestIndex]
        rintro rfl
        exact different (isOther.trans isId.symm)
      rw [cumulativePieces _ apart]
      simp only [deltaOthers _ apart]
      exact tracks.live other next isNext
  case ended =>
    intro other otherLt gone
    rw [states] at gone
    split at gone
    · rename_i same
      have isIndex := childId_injective config other index (within other otherLt)
        (within index inside) (same.trans isId)
      subst isIndex
      rw [pieces_eq, pieces_eq]
      exact ends gone
    · rename_i different
      have apart : other ≠ index := by
        rintro rfl
        exact different isId.symm
      rw [deltaPieces other apart, cumulativePieces other apart]
      exact tracks.ended other otherLt gone

theorem deliver_put (queue : RequestOutputCollector Prob Logprob Experts Params)
    (next : CompletionOutput Prob Logprob Experts) (finished : Bool)
    (kvTransferParams : Option Params) :
    reqState.deliver queue (some ⟨[some next], finished, kvTransferParams⟩) =
      queue.put ⟨[some next], if reqState.streamingInput then false else finished,
        kvTransferParams⟩ := by
  unfold RequestState.deliver
  cases reqState.streamingInput <;> rfl

/-- No parent, or one that hands outputs on and lists the request. -/
def Streams (requestId : RequestId) (parent : Option (ParentRequest Prob Logprob Experts)) : Prop :=
  ∀ held, parent = some held → held.outputKind ≠ .finalOnly ∧ requestId ∈ held.childRequests

variable (requestId : RequestId)

theorem refreshAggregated_streams {finished : Bool}
    {parent : Option (ParentRequest Prob Logprob Experts)} (streams : Streams requestId parent)
    (queue : RequestOutputCollector Prob Logprob Experts Params) :
    refreshAggregated (parent.map (letGo requestId finished)) queue = queue := by
  cases parent with
  | none => rfl
  | some held => exact refreshAggregated_streaming _ queue (streams held rfl).1

theorem letGo_unfinished (parent : Option (ParentRequest Prob Logprob Experts)) :
    parent.map (letGo requestId false) = parent := by
  cases parent <;> rfl

/-- The processor after an output: the state `after`, and freed when finished. -/
def processed (processor : OutputProcessor State Prob Logprob Experts Params)
    (after : RequestState State Prob Logprob) (finished : Bool)
    (queue : RequestOutputCollector Prob Logprob Experts Params) :
    OutputProcessor State Prob Logprob Experts Params :=
  let handled : OutputProcessor State Prob Logprob Experts Params :=
    ⟨processor.requestStates.set after.requestId after,
      processor.parent.map (letGo after.requestId finished), queue⟩
  if finished then handled.freeCompleted after else handled

theorem processed_parts {after : RequestState State Prob Logprob} {finished : Bool}
    (queue : RequestOutputCollector Prob Logprob Experts Params) :
    (processed processor after finished queue).parent =
        processor.parent.map (letGo after.requestId finished) ∧
      (processed processor after finished queue).queue = queue ∧
      ∀ other, (processed processor after finished queue).requestStates.get? other =
        if other = after.requestId then outcome after finished
        else processor.requestStates.get? other := by
  unfold processed outcome
  cases finished with
  | false => exact ⟨rfl, rfl, fun other => get?_set _ _ _ _⟩
  | true =>
    unfold OutputProcessor.freeCompleted
    by_cases streaming : after.streamingInput = true
    · simp only [if_pos streaming, ↓reduceIte]
      refine ⟨trivial, trivial, ?_⟩
      intro other
      rw [get?_set]
      by_cases same : other = after.requestId
      · rw [if_pos same, if_pos same]
        rfl
      · rw [if_neg same, if_neg same, get?_set, if_neg same]
    · simp only [if_neg streaming, ↓reduceIte]
      refine ⟨trivial, trivial, ?_⟩
      intro other
      by_cases same : other = after.requestId <;> simp [same]

/-- The CUMULATIVE run replaces what waits by a completion that shows everything. -/
theorem cumulative_output {reqState : RequestState State Prob Logprob}
    {digested : RequestState State Prob Logprob × Option FinishReason × Option StopReason}
    (known : processor.requestStates.get? output.requestId = some (twin reqState))
    (digest : reqState.digest tokenizer output = some digested)
    (plain : digested.1.detokenizer.decoder = none → digested.1.detokenizer.outputText = [])
    (streams : Streams digested.1.requestId processor.parent)
    (holds : Holds processor.queue false) :
    ∃ last queue flag, processor.processOutput tokenizer output =
        some (processed processor (twin digested.1) digested.2.1.isSome queue, flag) ∧
      Holds queue false ∧
      (∀ other, other ≠ digested.1.requestIndex →
        waiting other queue = waiting other processor.queue) ∧
      waiting digested.1.requestIndex queue = [last] ∧
      last.finished = digested.2.1.isSome ∧ Shows digested.1 last := by
  have twinDigest := digest_twin tokenizer reqState output
  rw [digest] at twinDigest
  obtain ⟨last, completion, index, reason, shows_⟩ := twin_shows digested.1 output.newTokenIds plain
  obtain ⟨finished, make⟩ := makeRequestOutput_sent (twin digested.1) output.kvTransferParams completion reason (sends_twin _ _) streams
  have refreshed := refresh_holds digested.1.requestIndex digested.1.logprobsProcessor.logprobs holds
  have join : joined false ((waiting last.index (refreshLogprobs digested.1.requestIndex
      digested.1.logprobsProcessor.logprobs processor.queue)).head?) last = some last := by
    unfold joined
    split <;> rfl
  obtain ⟨queue, put, after, others, mine⟩ := put_holds _
    (if digested.1.streamingInput then false else finished) output.kvTransferParams refreshed join
  rw [index] at others mine
  obtain ⟨flag, done⟩ := processOutput_parts tokenizer processor output known twinDigest make
    (by
      rw [refreshAggregated_streams (twin digested.1).requestId streams, deliver_put]
      exact put)
    (by
      intro completion waits _
      change completion ∈ waiting digested.1.requestIndex queue at waits
      rw [mine, mem_singleton] at waits
      rw [waits]
      exact shows_.logprobs)
  refine ⟨last, queue, flag, done, after, ?_, mine, ?_, shows_⟩
  · intro other different
    rw [others other different, refresh_other _ different]
  · unfold CompletionOutput.finished
    rw [reason]

/-- What the DELTA run leaves of a request after an output or before it ends. -/
structure Turned (before after : RequestState State Prob Logprob) (finished : Bool)
    (taken held : List (CompletionOutput Prob Logprob Experts)) : Prop where
  twin : twin after = twin before
  same : SameRequest before after
  logprobs : after.logprobsProcessor = before.logprobsProcessor
  handedOut : HandedOut after (sentCount after) taken held
  ready : after.detokenizer.lastOutputTextOffset ≤ readyLength after.detokenizer finished
  all : finished = true →
    after.detokenizer.lastOutputTextOffset = after.detokenizer.outputText.length ∧
      sentCount after = after.detokenizer.outputTokenIds.length

theorem handOut_turned {finished : Bool} {sentTokensOffset : Nat}
    {taken held : List (CompletionOutput Prob Logprob Experts)}
    (handed : HandedOut (handOut reqState finished sentTokensOffset)
      (sentCount (handOut reqState finished sentTokensOffset)) taken held)
    (count : sentCount (handOut reqState finished sentTokensOffset) =
      reqState.detokenizer.outputTokenIds.length) :
    Turned reqState (handOut reqState finished sentTokensOffset) finished taken held where
  twin := rfl
  same := ⟨rfl, rfl, rfl, rfl, rfl, rfl, rfl, rfl, rfl⟩
  logprobs := rfl
  handedOut := handed
  ready := Nat.le_refl _
  all := by
    rintro rfl
    exact ⟨rfl, count⟩

/-- The DELTA run joins a completion to what waits, or sends nothing yet. -/
theorem delta_output {reqState : RequestState State Prob Logprob}
    {digested : RequestState State Prob Logprob × Option FinishReason × Option StopReason}
    {taken : List (CompletionOutput Prob Logprob Experts)} {sent : Nat}
    (known : processor.requestStates.get? output.requestId = some reqState)
    (digest : reqState.digest tokenizer output = some digested)
    (handed : HandedOut digested.1 sent taken
      (waiting digested.1.requestIndex processor.queue)) (delta : digested.1.outputKind = .delta)
    (offset : 1 < digested.1.streamInterval → digested.1.sentTokensOffset = sent)
    (fresh : ¬ 1 < digested.1.streamInterval →
      digested.1.detokenizer.outputTokenIds.drop sent = output.newTokenIds)
    (ready : digested.1.detokenizer.lastOutputTextOffset ≤
      readyLength digested.1.detokenizer digested.2.1.isSome)
    (sliced : digested.1.sends digested.2.1.isSome = true →
      digested.1.detokenizer.outputTokenIds.drop sent = [] →
      digested.1.logprobsProcessor.logprobs.getD [] = [])
    (streams : Streams digested.1.requestId processor.parent) (holds : Holds processor.queue true) :
    ∃ after queue flag, processor.processOutput tokenizer output =
        some (processed processor after digested.2.1.isSome queue, flag) ∧
      Holds queue true ∧
      (∀ other, other ≠ digested.1.requestIndex →
        waiting other queue = waiting other processor.queue) ∧
      Turned digested.1 after digested.2.1.isSome taken (waiting digested.1.requestIndex queue) := by
  have upToDate : UpToDate digested.1.requestIndex digested.1.logprobsProcessor.logprobs
      processor.queue := fun completion waits shared => (handed.shared completion waits shared).1
  have refreshed := refresh_holds digested.1.requestIndex digested.1.logprobsProcessor.logprobs holds
  have same := refresh_upToDate _ _ _ upToDate
  by_cases sends : digested.1.sends digested.2.1.isSome = true
  · obtain ⟨next, result, sentTokensOffset, made, index, reason, join, handedAfter, count⟩ :=
      send_handedOut digested.1 output.newTokenIds digested.2.1 handed delta offset fresh ready (sliced sends)
    obtain ⟨finished, make⟩ := makeRequestOutput_sent digested.1 output.kvTransferParams made reason sends
      streams
    have joinHere : joined true (waiting next.index (refreshLogprobs digested.1.requestIndex
        digested.1.logprobsProcessor.logprobs processor.queue)).head? next = some result := by
      rw [same, index]
      exact join
    obtain ⟨queue, put, after, others, mine⟩ := put_holds _
      (if digested.1.streamingInput then false else finished) output.kvTransferParams refreshed joinHere
    rw [index] at others mine
    obtain ⟨flag, done⟩ := processOutput_parts tokenizer processor output known digest make
      (by
        rw [refreshAggregated_streams digested.1.requestId streams, deliver_put]
        exact put)
      (by
        intro completion waits shared
        change completion ∈ waiting digested.1.requestIndex queue at waits
        rw [mine] at waits
        exact (handedAfter.shared completion waits shared).1)
    refine ⟨_, queue, flag, done, after, ?_, ?_⟩
    · intro other different
      rw [others other different, same]
    · rw [mine]
      exact handOut_turned digested.1 handedAfter count
  · have silent : digested.1.sends digested.2.1.isSome = false := by simpa using sends
    have unfinished : digested.2.1.isSome = false := by
      cases finished : digested.2.1.isSome with
      | false => rfl
      | true =>
        rw [finished, sends_finished] at silent
        cases silent
    have interval : 1 < digested.1.streamInterval := by
      by_contra short
      rw [RequestState.sends, if_neg (by simp [delta]), if_neg short] at silent
      cases silent
    have make := makeRequestOutput_silent digested.1 processor.parent output.newTokenIds digested.2.2 output.kvTransferParams output.routedExperts silent
    obtain ⟨flag, done⟩ := processOutput_parts tokenizer processor output known digest make
      (by
        rw [← letGo_unfinished digested.1.requestId processor.parent,
          refreshAggregated_streams digested.1.requestId streams]
        rfl)
      (by
        intro completion waits shared
        rw [same] at waits
        exact upToDate completion waits shared)
    refine ⟨digested.1, _, flag, ?_, refreshed, fun other _ => same other, ?_⟩
    · rw [done]
      unfold processed
      simp only [unfinished, letGo_unfinished]
    · rw [same]
      constructor
      case twin => rfl
      case same => exact ⟨rfl, rfl, rfl, rfl, rfl, rfl, rfl, rfl, rfl⟩
      case logprobs => rfl
      case handedOut =>
        rw [sentCount, if_pos interval, offset interval]
        exact handed
      case ready => exact ready
      case all =>
        intro finished
        rw [unfinished] at finished
        cases finished

/-- A change of the session only: its prompt, its queue of chunks, its end. -/
structure SessionChange (config : StreamRequest State Entry Prob Logprob)
    (before after : RequestState State Prob Logprob) : Prop where
  requestId : after.requestId = before.requestId
  requestIndex : after.requestIndex = before.requestIndex
  outputKind : after.outputKind = before.outputKind
  detokenizer : after.detokenizer = before.detokenizer
  logprobs : after.logprobsProcessor = before.logprobsProcessor
  interval : after.streamInterval = before.streamInterval
  offset : after.sentTokensOffset = before.sentTokensOffset
  session : config.request.resumable = true

theorem SessionChange.live {config : StreamRequest State Entry Prob Logprob}
    {before after : RequestState State Prob Logprob} (change : SessionChange config before after)
    {taken held : List (CompletionOutput Prob Logprob Experts)}
    {last : Option (CompletionOutput Prob Logprob Experts)} (live : Live before taken held last) :
    Live after taken held last := by
  have count : sentCount after = sentCount before := by
    unfold sentCount
    rw [change.interval, change.offset, change.detokenizer]
  obtain ⟨handed, holdsBack, shows_⟩ := live
  constructor
  · rw [count]
    obtain ⟨text, tokens, logprobs, plain, prompt, sent, counted, single, shared, asked⟩ := handed
    rw [← change.detokenizer] at text tokens plain prompt sent counted
    rw [← change.logprobs] at logprobs counted shared asked
    exact ⟨text, tokens, logprobs, plain, prompt, sent, counted, single, shared, asked⟩
  · rw [change.detokenizer]
    exact holdsBack
  · cases last with
    | none => exact shows_
    | some last =>
      obtain ⟨⟨text, tokenIds, logprobs⟩, final⟩ := shows_
      rw [← change.detokenizer] at text tokenIds final
      rw [← change.logprobs] at logprobs
      rw [← count] at final
      exact ⟨⟨text, tokenIds, logprobs⟩, final⟩

theorem SessionChange.owned {config : StreamRequest State Entry Prob Logprob}
    {before after : RequestState State Prob Logprob} (change : SessionChange config before after)
    {id : RequestId} {index : Nat} (owned : Owned config id index before) :
    Owned config id index after where
  requestId := change.requestId.trans owned.requestId
  requestIndex := change.requestIndex.trans owned.requestIndex
  outputKind := change.outputKind.trans owned.outputKind
  stop := by
    rw [change.detokenizer]
    exact owned.stop
  streaming := fun _ => change.session
  logprobs := by
    rw [change.logprobs]
    exact owned.logprobs
  cumulative := by
    rw [change.logprobs]
    exact owned.cumulative

theorem nextChunk_change (reqState : RequestState State Prob Logprob)
    (session : config.request.resumable = true) :
    SessionChange config reqState (nextChunk reqState) := by
  unfold nextChunk
  split
  · exact ⟨rfl, rfl, rfl, rfl, rfl, rfl, rfl, session⟩
  · exact ⟨rfl, rfl, rfl, rfl, rfl, rfl, rfl, session⟩

theorem Turned.shows {before after : RequestState State Prob Logprob} {finished : Bool}
    {taken held : List (CompletionOutput Prob Logprob Experts)}
    (turned : Turned before after finished taken held)
    {last : CompletionOutput Prob Logprob Experts} (shows_ : Shows before last) :
    Shows after last := by
  have twinShows : Shows (DeltaStreams.twin before) last :=
    ⟨shows_.text, shows_.tokenIds, shows_.logprobs⟩
  rw [← turned.twin] at twinShows
  exact ⟨twinShows.text, twinShows.tokenIds, twinShows.logprobs⟩

/-- A request that goes on is live: it has not finished, or it is a session, which
has no stop strings. -/
theorem Turned.live {before after : RequestState State Prob Logprob} {finished : Bool}
    {taken held : List (CompletionOutput Prob Logprob Experts)}
    (turned : Turned before after finished taken held)
    {last : CompletionOutput Prob Logprob Experts} (shows_ : Shows before last)
    (lastFinished : last.finished = finished)
    (session : finished = true → after.detokenizer.stop.stop = []) :
    Live after taken held (some last) := by
  constructor
  · exact turned.handedOut
  · cases finished with
    | false => exact turned.ready
    | true =>
      have noBuffer : after.detokenizer.stopBufferLength = 0 := by
        simp [IncrementalDetokenizer.stopBufferLength, session rfl]
      unfold Held
      rw [noBuffer]
      exact Nat.le_of_eq (turned.all rfl).1
  · refine ⟨turned.shows shows_, ?_⟩
    intro isFinished
    exact turned.all (lastFinished.symm.trans isFinished)

theorem Turned.ended {before after : RequestState State Prob Logprob}
    {taken held : List (CompletionOutput Prob Logprob Experts)}
    (config : StreamRequest State Entry Prob Logprob)
    (turned : Turned before after true taken held)
    (cumulative : List (CompletionOutput Prob Logprob Experts))
    {last : CompletionOutput Prob Logprob Experts} (isLast : cumulative.getLast? = some last)
    (shows_ : Shows before last) (lastFinished : last.finished = true) :
    Ended config (taken ++ held) cumulative := by
  constructor
  · unfold Reassembles
    rw [isLast]
    apply handedOut_addsUp after taken held last turned.handedOut (turned.shows shows_)
    · rw [lastFinished]
      exact turned.ready
    · intro _
      exact turned.all rfl
  · intro _
    exact ⟨last, isLast, lastFinished⟩

variable (delta cumulative : Stream State Prob Logprob Experts Params)

/-- An engine output takes both runs one step. -/
theorem output_tracks (tracks : Tracks config delta cumulative)
    (output : EngineCoreOutput Entry Experts Params)
    (promised : Promised config delta (.engineOutput output))
    (slices : KeepsSlices delta (.engineOutput output : Step State Entry Experts Params)) :
    ∃ deltaNext cumulativeNext, delta.step config .delta (.engineOutput output) = some deltaNext ∧
      cumulative.step config .cumulative (.engineOutput output) = some cumulativeNext ∧
      Tracks config deltaNext cumulativeNext := by
  have twins := tracks.states output.requestId
  cases found : delta.processor.requestStates.get? output.requestId with
  | none =>
    rw [found] at twins
    refine ⟨delta, cumulative, ?_, ?_, tracks⟩
    · simp [Stream.step, OutputProcessor.processOutput, found]
    · simp [Stream.step, OutputProcessor.processOutput, twins]
  | some reqState =>
    rw [found] at twins
    obtain ⟨index, inside, isId, owned⟩ := tracks.owned output.requestId reqState found
    have live := tracks.live output.requestId reqState found
    rw [owned.requestIndex] at live
    obtain ⟨quietEmpty, quietShared⟩ := slices reqState found
    rw [owned.requestIndex] at quietShared
    have promise := promised (by rw [found]; rfl)
    rw [← owned.logprobs] at promise
    obtain ⟨digested, more, stopString, digest, state, cumulativeLog, grows, length, updated,
      unstopped, reason, silentStop, handed⟩ := digest_handedOut config.tokenizer reqState _ _ output
        live.handedOut live.holdsBack owned.cumulative promise quietShared
    have sameIndex : digested.1.requestIndex = index := by
      rw [state]
      exact owned.requestIndex
    have sameId : digested.1.requestId = output.requestId := by
      rw [state]
      exact owned.requestId
    have isDelta : digested.1.outputKind = .delta := by
      rw [state]
      exact owned.outputKind
    have appended := outputTokenIds_append live.handedOut.prompt updated.settings.promptLen updated.tokenIds
    have dropped : digested.1.detokenizer.outputTokenIds.drop (sentCount reqState) =
        reqState.detokenizer.outputTokenIds.drop (sentCount reqState) ++ output.newTokenIds := by
      rw [appended, drop_append_of_le_length live.handedOut.sent]
    have sameInterval : digested.1.streamInterval = reqState.streamInterval := by rw [state]
    have sameOffset : digested.1.sentTokensOffset = reqState.sentTokensOffset := by rw [state]
    have streams : Streams digested.1.requestId delta.processor.parent := by
      intro held isHeld
      obtain ⟨kind, -, all⟩ := tracks.listed held isHeld
      rw [kind, sameId]
      exact ⟨by simp, all _ (by rw [found]; rfl)⟩
    have twinStreams : Streams digested.1.requestId cumulative.processor.parent := by
      intro held isHeld
      rw [tracks.parent, map_eq_some_iff] at isHeld
      obtain ⟨before, isBefore, rfl⟩ := isHeld
      exact ⟨by simp [twinParent], (streams before isBefore).2⟩
    obtain ⟨last, cumulativeQueue, flag, cumulativeDone, cumulativeHolds, cumulativeOthers,
      cumulativeMine, lastFinished, shows_⟩ := cumulative_output config.tokenizer
        cumulative.processor output twins digest handed.plain twinStreams
        tracks.cumulativeQueue
    have deltaTurn := delta_output config.tokenizer delta.processor output found digest (by rw [sameIndex]; exact handed)
      isDelta
      (by
        intro interval
        rw [sameInterval] at interval
        rw [sameOffset, sentCount, if_pos interval])
      (by
        intro short
        rw [sameInterval] at short
        rw [dropped, sentCount, if_neg short, drop_length, nil_append])
      (by
        cases finish : digested.2.1 with
        | none => exact updated.held (unstopped finish)
        | some reason => exact updated.inside)
      (by
        -- nothing to send: the state is the one before the output
        intro sends nothing
        rw [dropped, append_eq_nil_iff] at nothing
        have sameSends : digested.1.sends output.finishReason.isSome =
            reqState.sends output.finishReason.isSome := by
          unfold RequestState.sends
          rw [numOutputTokens_eq, numOutputTokens_eq, appended, nothing.2, append_nil,
            sameInterval, sameOffset, isDelta, owned.outputKind]
        rw [reason (silentStop nothing.2), sameSends] at sends
        have carriesNone : (reqState.sendTokens []).1 = [] := by
          unfold RequestState.sendTokens
          split
          · rename_i interval
            have none_ := nothing.1
            rwa [sentCount, if_pos interval.1] at none_
          · rfl
        have empty := quietEmpty nothing.2 sends carriesNone
        cases list : reqState.logprobsProcessor.logprobs with
        | none => simp [grows, list]
        | some entries =>
          have noMore : more = [] := by
            apply length_eq_zero_iff.mp
            rw [length (by rw [list]; rfl), nothing.2]
            rfl
          simpa [grows, list, noMore] using empty)
      streams tracks.deltaQueue
    obtain ⟨after, deltaQueue, deltaFlag, deltaDone, deltaHolds, deltaOthers, turned⟩ := deltaTurn
    rw [sameIndex] at cumulativeOthers cumulativeMine deltaOthers turned
    have afterId : after.requestId = output.requestId := turned.same.requestId.trans sameId
    have twinId : (twin after).requestId = output.requestId := afterId
    rw [← turned.twin] at cumulativeDone
    obtain ⟨deltaParent, isDeltaQueue, deltaStates⟩ := processed_parts delta.processor deltaQueue
    obtain ⟨cumulativeParent, isCumulativeQueue, cumulativeStates⟩ := processed_parts
      cumulative.processor cumulativeQueue
    rw [afterId] at deltaParent deltaStates
    rw [twinId, ← outcome_twin] at cumulativeStates
    rw [twinId] at cumulativeParent
    have getLast : (takenOf index cumulative.got ++
        waiting index (processed cumulative.processor (twin after) digested.2.1.isSome
          cumulativeQueue).queue).getLast? = some last := by
      rw [isCumulativeQueue, cumulativeMine, getLast?_concat]
    have ownedAfter : Owned config output.requestId index after := by
      constructor
      · exact afterId
      · exact turned.same.requestIndex.trans sameIndex
      · exact turned.same.outputKind.trans isDelta
      · rw [turned.same.stop, updated.settings.stop]
        exact owned.stop
      · rw [turned.same.streamingInput, state]
        exact owned.streaming
      · rw [turned.logprobs, grows, isSome_map]
        exact owned.logprobs
      · rw [turned.logprobs]
        exact cumulativeLog
    refine ⟨_, _, ?_, ?_, tracks.turn output.requestId index reqState found inside isId _ _
      (outcome after digested.2.1.isSome) deltaStates cumulativeStates digested.2.1.isSome
      deltaParent cumulativeParent ?_ ?_ ?_ ?_ ?_ ?_ ?_⟩
    · simp only [Stream.step, deltaDone, map_some]
    · simp only [Stream.step, cumulativeDone, map_some]
    · intro goesOn
      cases finish : digested.2.1.isSome with
      | false => exact Or.inr rfl
      | true =>
        rw [finish] at goesOn
        have streaming : after.streamingInput = true := by
          by_contra ended
          simp [outcome, ended] at goesOn
        exact Or.inl (Nat.le_of_eq (config.session (ownedAfter.streaming streaming)).1)
    · rw [isDeltaQueue]
      exact deltaHolds
    · rw [isCumulativeQueue]
      exact cumulativeHolds
    · rw [isDeltaQueue]
      exact deltaOthers
    · rw [isCumulativeQueue]
      exact cumulativeOthers
    · intro next isNext
      rw [getLast, isDeltaQueue]
      cases finish : digested.2.1.isSome with
      | false =>
        rw [finish] at isNext turned lastFinished
        cases isNext
        exact ⟨ownedAfter, turned.live shows_ lastFinished (by simp)⟩
      | true =>
        rw [finish] at isNext turned lastFinished
        simp only [outcome, ↓reduceIte] at isNext
        split at isNext
        · rename_i streaming
          cases isNext
          have session := ownedAfter.streaming streaming
          have noStop : after.detokenizer.stop.stop = [] := by
            rw [ownedAfter.stop]
            exact (config.session session).2
          have change := nextChunk_change config after session
          exact ⟨change.owned ownedAfter,
            change.live (turned.live shows_ lastFinished fun _ => noStop)⟩
        · cases isNext
    · intro gone
      rw [isDeltaQueue]
      cases finish : digested.2.1.isSome with
      | false =>
        rw [finish] at gone
        cases gone
      | true =>
        rw [finish] at turned lastFinished getLast
        exact turned.ended config _ getLast shows_ lastFinished

/-- Aborting puts a last completion and forgets the request. -/
theorem abort_parts {reqState after : RequestState State Prob Logprob}
    {next result : CompletionOutput Prob Logprob Experts} {aggregate : Bool}
    (known : processor.requestStates.get? requestId = some reqState)
    (isId : reqState.requestId = requestId)
    (made : (reqState.sendTokens []).2.newCompletionOutput (reqState.sendTokens []).1 (some .abort)
      none none = (next, after)) (reason : next.finishReason = some .abort)
    (streams : Streams requestId processor.parent) (holds : Holds processor.queue aggregate)
    (join : joined aggregate (waiting next.index processor.queue).head? next = some result) :
    ∃ queue states, abortRequest processor requestId =
        some ⟨states, processor.parent.map (letGo requestId true), queue⟩ ∧
      (∀ other, states.get? other =
        if other = requestId then none else processor.requestStates.get? other) ∧
      Holds queue aggregate ∧
      (∀ other, other ≠ next.index → waiting other queue = waiting other processor.queue) ∧
      waiting next.index queue = [result] := by
  obtain ⟨finished, make⟩ := makeRequestOutput_sent reqState
    (none : Option Params) made reason (sends_finished reqState)
    (by rw [isId]; exact streams)
  obtain ⟨queue, put, after, others, mine⟩ := put_holds processor.queue finished none holds join
  refine ⟨queue, processor.requestStates.erase requestId, ?_, fun other => get?_erase _ _ _, after,
    others, mine⟩
  rw [isId] at make
  simp only [abortRequest, known, make, bind_eq_bind, bind_some, isSome_some,
    refreshAggregated_streams requestId streams, put]

theorem abort_tracks (tracks : Tracks config delta cumulative) (requestId : RequestId)
    (slices : KeepsSlices delta (.abort requestId : Step State Entry Experts Params)) :
    ∃ deltaNext cumulativeNext,
      delta.step config .delta (.abort requestId : Step State Entry Experts Params) =
        some deltaNext ∧
      cumulative.step config .cumulative (.abort requestId : Step State Entry Experts Params) =
        some cumulativeNext ∧
      Tracks config deltaNext cumulativeNext := by
  have twins := tracks.states requestId
  cases found : delta.processor.requestStates.get? requestId with
  | none =>
    rw [found] at twins
    refine ⟨delta, cumulative, ?_, ?_, tracks⟩
    · simp [Stream.step, abortRequest, found]
    · simp [Stream.step, abortRequest, twins]
  | some reqState =>
    rw [found] at twins
    obtain ⟨index, inside, isId, owned⟩ := tracks.owned requestId reqState found
    have live := tracks.live requestId reqState found
    rw [owned.requestIndex] at live
    have streams : Streams requestId delta.processor.parent := by
      intro held isHeld
      obtain ⟨kind, -, all⟩ := tracks.listed held isHeld
      rw [kind]
      exact ⟨by simp, all _ (by rw [found]; rfl)⟩
    have twinStreams : Streams requestId cumulative.processor.parent := by
      intro held isHeld
      rw [tracks.parent, map_eq_some_iff] at isHeld
      obtain ⟨before, isBefore, rfl⟩ := isHeld
      exact ⟨by simp [twinParent], (streams before isBefore).2⟩
    have inText : reqState.detokenizer.lastOutputTextOffset ≤
        readyLength reqState.detokenizer true :=
      Nat.le_trans live.holdsBack (Nat.sub_le _ _)
    -- what was not sent yet goes out with the abort
    obtain ⟨next, result, sentTokensOffset, made, nextIndex, reason, join, handedAfter, count⟩ :=
      send_handedOut reqState [] (some .abort) live.handedOut
        owned.outputKind (fun interval => by rw [sentCount, if_pos interval])
        (fun short => by rw [sentCount, if_neg short, drop_length]) inText
        (by
          intro nothing
          apply slices reqState found
          unfold RequestState.sendTokens
          split
          · rename_i interval
            rwa [sentCount, if_pos interval.1] at nothing
          · rfl)
    rw [owned.requestIndex] at nextIndex
    obtain ⟨deltaQueue, deltaStates, deltaDone, deltaGone, deltaHolds, deltaOthers, deltaMine⟩ :=
      abort_parts delta.processor requestId found owned.requestId made
        reason streams tracks.deltaQueue (by rw [nextIndex]; exact join)
    obtain ⟨last, completion, lastIndex, lastReason, shows_⟩ := twin_shows reqState [] live.handedOut.plain
    rw [owned.requestIndex] at lastIndex
    have joinLast : joined false (waiting last.index cumulative.processor.queue).head? last =
        some last := by
      unfold joined
      split <;> rfl
    obtain ⟨cumulativeQueue, cumulativeStates, cumulativeDone, cumulativeGone, cumulativeHolds,
      cumulativeOthers, cumulativeMine⟩ := abort_parts cumulative.processor requestId twins owned.requestId completion lastReason twinStreams
        tracks.cumulativeQueue joinLast
    rw [nextIndex] at deltaOthers deltaMine
    rw [lastIndex] at cumulativeOthers cumulativeMine
    have turned := handOut_turned reqState handedAfter count
    rw [← deltaMine] at turned
    have getLast : (takenOf index cumulative.got ++ waiting index cumulativeQueue).getLast? =
        some last := by
      rw [cumulativeMine, getLast?_concat]
    have lastFinished : last.finished = true := by
      unfold CompletionOutput.finished
      rw [lastReason]
      rfl
    refine ⟨_, _, ?_, ?_, tracks.turn requestId index reqState found inside isId
      ⟨deltaStates, delta.processor.parent.map (letGo requestId true), deltaQueue⟩
      ⟨cumulativeStates, cumulative.processor.parent.map (letGo requestId true), cumulativeQueue⟩
      none deltaGone cumulativeGone true rfl rfl (by simp) deltaHolds cumulativeHolds deltaOthers
      cumulativeOthers (by simp) ?_⟩
    · simp only [Stream.step, deltaDone, map_some]
    · simp only [Stream.step, cumulativeDone, map_some]
    · intro _
      exact turned.ended config _ getLast shows_ lastFinished

/-- What the next request of a session makes of its state; none when it closes. -/
def chunked (reqState : RequestState State Prob Logprob) (request : EngineCoreRequest State)
    (prompt : Option (List Char)) : Option (RequestState State Prob Logprob) :=
  let update : StreamingUpdate := ⟨prompt, request.promptTokenIds, false⟩
  if request.resumable = false then
    match reqState.inputChunkQueue with
    | none => none
    | some [] => some { reqState with streamingInput := false }
    | some (first :: rest) =>
      some { reqState with inputChunkQueue := some (markFinal (first :: rest)) }
  else
    match reqState.inputChunkQueue with
    | none => some { reqState.applyStreamingUpdate update with inputChunkQueue := some [] }
    | some queued => some { reqState with inputChunkQueue := some (queued ++ [update]) }

theorem chunked_twin (request : EngineCoreRequest State) (prompt : Option (List Char)) :
    (chunked reqState request prompt).map twin = chunked (twin reqState) request prompt := by
  unfold chunked
  simp only [twin]
  split
  · split <;> rfl
  · split <;> rfl

theorem chunked_change {reqState next : RequestState State Prob Logprob}
    {request : EngineCoreRequest State} {prompt : Option (List Char)}
    (session : config.request.resumable = true)
    (isNext : chunked reqState request prompt = some next) :
    SessionChange config reqState next := by
  unfold chunked at isNext
  split at isNext
  · split at isNext <;> cases isNext <;> exact ⟨rfl, rfl, rfl, rfl, rfl, rfl, rfl, session⟩
  · split at isNext <;> cases isNext <;> exact ⟨rfl, rfl, rfl, rfl, rfl, rfl, rfl, session⟩

theorem update_parts {reqState : RequestState State Prob Logprob}
    {request : EngineCoreRequest State} {prompt : Option (List Char)} {aggregate : Bool}
    (holds : Holds processor.queue aggregate) :
    ∃ after, processor.updateStreamingRequestState reqState request prompt = some after ∧
      after.parent = processor.parent ∧ Holds after.queue aggregate ∧
      (∀ index, waiting index after.queue = waiting index processor.queue) ∧
      ∀ other, after.requestStates.get? other =
        if other = reqState.requestId then chunked reqState request prompt
        else processor.requestStates.get? other := by
  obtain ⟨closed, put, sameAggregate, real, same⟩ := put_streamFinished_pieces processor.queue holds.real
  unfold OutputProcessor.updateStreamingRequestState chunked
  by_cases goesOn : request.resumable = false
  · simp only [if_pos goesOn]
    cases queue : reqState.inputChunkQueue with
    | none =>
      simp only [put, map_some]
      refine ⟨_, rfl, rfl, ⟨sameAggregate.trans holds.aggregate, real, ?_⟩, same,
        fun other => get?_erase _ _ _⟩
      intro index
      rw [same]
      exact holds.single index
    | some queued =>
      cases queued with
      | nil => exact ⟨_, rfl, rfl, holds, fun _ => rfl, fun other => get?_set _ _ _ _⟩
      | cons first rest => exact ⟨_, rfl, rfl, holds, fun _ => rfl, fun other => get?_set _ _ _ _⟩
  · simp only [if_neg goesOn]
    cases queue : reqState.inputChunkQueue with
    | none => exact ⟨_, rfl, rfl, holds, fun _ => rfl, fun other => get?_set _ _ _ _⟩
    | some queued => exact ⟨_, rfl, rfl, holds, fun _ => rfl, fun other => get?_set _ _ _ _⟩

theorem update_tracks (tracks : Tracks config delta cumulative) (request : EngineCoreRequest State)
    (prompt : Option (List Char)) :
    ∃ deltaNext cumulativeNext, delta.update config request prompt = some deltaNext ∧
      cumulative.update config request prompt = some cumulativeNext ∧
      Tracks config deltaNext cumulativeNext := by
  have twins := tracks.states config.request.requestId
  unfold Stream.update
  cases found : delta.processor.requestStates.get? config.request.requestId with
  | none =>
    rw [found] at twins
    rw [twins]
    exact ⟨delta, cumulative, rfl, rfl, tracks⟩
  | some reqState =>
    rw [found, map_some] at twins
    rw [twins]
    by_cases session : config.request.resumable = true
    · simp only [if_pos session]
      obtain ⟨index, inside, isId, owned⟩ := tracks.owned _ reqState found
      have live := tracks.live _ reqState found
      rw [owned.requestIndex] at live
      obtain ⟨deltaNext, deltaDone, deltaParent, deltaHolds, deltaSame, deltaStates⟩ :=
        update_parts delta.processor tracks.deltaQueue
      obtain ⟨cumulativeNext, cumulativeDone, cumulativeParent, cumulativeHolds, cumulativeSame,
        cumulativeStates⟩ := update_parts cumulative.processor tracks.cumulativeQueue
      rw [owned.requestId] at deltaStates
      rw [show (twin reqState).requestId = _ from owned.requestId, ← chunked_twin]
        at cumulativeStates
      rw [deltaDone, cumulativeDone]
      refine ⟨_, _, rfl, rfl, tracks.turn _ index reqState found inside isId deltaNext
        cumulativeNext _ deltaStates cumulativeStates false ?_ ?_ (by simp) deltaHolds
        cumulativeHolds (fun other _ => deltaSame other) (fun other _ => cumulativeSame other) ?_ ?_⟩
      · rw [letGo_unfinished]
        exact deltaParent
      · rw [letGo_unfinished]
        exact cumulativeParent
      · intro next isNext
        have change := chunked_change config session isNext
        rw [deltaSame, cumulativeSame, ← pieces_eq]
        exact ⟨change.owned owned, change.live live⟩
      · intro _
        rw [deltaSame, cumulativeSame, ← pieces_eq cumulative]
        exact ⟨live.reassembles, fun not => by rw [session] at not; cases not⟩
    · simp only [if_neg session]
      exact ⟨delta, cumulative, rfl, rfl, tracks⟩

theorem takenOf_append (got more : List (RequestOutput Prob Logprob Experts Params)) :
    takenOf index (got ++ more) = takenOf index got ++ takenOf index more :=
  flatMap_append

theorem takenOf_queue : takenOf index queue.output.toList = waiting index queue := by
  unfold takenOf waiting
  cases queue.output with
  | none => rfl
  | some output => simp

theorem get_pieces (stream : Stream State Prob Logprob Experts Params) (index : Nat) :
    stream.get.pieces index = stream.pieces index := by
  rw [pieces_eq, pieces_eq]
  simp only [Stream.get, takenOf_append, takenOf_queue]
  simp [waiting, RequestOutputCollector.take, piecesOf]

theorem take_holds (aggregate : Bool) (holds : Holds queue aggregate) :
    Holds queue.take aggregate where
  aggregate := holds.aggregate
  real := by
    rintro output ⟨⟩
  single := by
    simp [waiting, RequestOutputCollector.take, piecesOf]

/-- Taking what waits hands nothing else out. -/
theorem get_tracks (tracks : Tracks config delta cumulative) :
    Tracks config delta.get cumulative.get := by
  constructor
  case added => exact tracks.added
  case room => exact tracks.room
  case states => exact tracks.states
  case owned => exact tracks.owned
  case parent => exact tracks.parent
  case hasParent => exact tracks.hasParent
  case listed => exact tracks.listed
  case deltaQueue => exact take_holds _ true tracks.deltaQueue
  case cumulativeQueue => exact take_holds _ false tracks.cumulativeQueue
  case fresh =>
    intro index later
    rw [get_pieces, get_pieces]
    exact tracks.fresh index later
  case live =>
    intro id reqState found
    have live := tracks.live id reqState found
    have nothing : waiting reqState.requestIndex delta.get.processor.queue = [] := by
      simp [waiting, Stream.get, RequestOutputCollector.take, piecesOf]
    rw [get_pieces, nothing]
    have all : takenOf reqState.requestIndex delta.get.got =
        takenOf reqState.requestIndex delta.got ++
          waiting reqState.requestIndex delta.processor.queue := by
      simp only [Stream.get, takenOf_append, takenOf_queue]
    have handed := live.handedOut
    constructor
    · constructor
      · rw [all, append_nil]
        exact handed.text
      · rw [all, append_nil]
        exact handed.tokens
      · rw [all, append_nil]
        exact handed.logprobs
      · exact handed.plain
      · exact handed.prompt
      · exact handed.sent
      · exact handed.counted
      · exact Nat.zero_le 1
      · intro completion waits
        cases waits
      · intro completion waits
        cases waits
    · exact live.holdsBack
    · rw [all, append_nil]
      exact live.last
  case ended =>
    intro index inside gone
    rw [get_pieces, get_pieces]
    exact tracks.ended index inside gone

/-- A request that has handed out nothing. -/
theorem fresh_live (index : Nat) :
    Owned config requestId index (RequestState.fromNewRequest config.zero
        { config.request with requestId := requestId, outputKind := .delta } config.prompt index
        config.streamInterval : RequestState State Prob Logprob) ∧
      Live (RequestState.fromNewRequest config.zero
          { config.request with requestId := requestId, outputKind := .delta } config.prompt index
          config.streamInterval : RequestState State Prob Logprob)
        ([] : List (CompletionOutput Prob Logprob Experts)) [] none := by
  have noTokens : (RequestState.fromNewRequest config.zero
      { config.request with requestId := requestId, outputKind := .delta } config.prompt index
      config.streamInterval : RequestState State Prob Logprob).detokenizer.outputTokenIds = [] := by
    simp [RequestState.fromNewRequest, IncrementalDetokenizer.outputTokenIds]
  have noLogs : (RequestState.fromNewRequest config.zero
      { config.request with requestId := requestId, outputKind := .delta } config.prompt index
      config.streamInterval : RequestState State Prob Logprob).logprobsProcessor.logprobs =
        if config.request.logprobs then some [] else none := by
    simp only [RequestState.fromNewRequest]
    split <;> rfl
  constructor
  · constructor
    · rfl
    · rfl
    · rfl
    · rfl
    · exact id
    · rw [noLogs]
      cases config.request.logprobs <;> rfl
    · simp only [RequestState.fromNewRequest]
      cases config.request.logprobs <;> rfl
  · constructor
    · constructor
      case text => simp [texts, RequestState.fromNewRequest]
      case tokens => simp [tokens, noTokens]
      case logprobs =>
        rw [noLogs]
        cases config.request.logprobs <;> simp [logs]
      case plain => exact fun _ => rfl
      case prompt => exact Nat.le_refl _
      case sent =>
        unfold sentCount
        rw [noTokens]
        split
        · exact Nat.le_refl 0
        · exact Nat.le_refl 0
      case counted =>
        intro list isList
        rw [noLogs] at isList
        rw [noTokens]
        cases asked : config.request.logprobs with
        | false =>
          rw [asked] at isList
          cases isList
        | true =>
          rw [asked] at isList
          cases isList
          rfl
      case single => exact Nat.zero_le 1
      case shared =>
        intro completion waits
        cases waits
      case asked =>
        intro completion waits
        cases waits
    · exact Nat.zero_le _
    · rfl

/-- The parent lists the child that is added next. -/
def adopt (index : Nat) (parent : ParentRequest Prob Logprob Experts) :
    ParentRequest Prob Logprob Experts :=
  (parent.getChildInfo index).1

theorem add_parts (kind : RequestOutputKind) (stream : Stream State Prob Logprob Experts Params)
    (more : stream.added < config.n)
    (hasParent : stream.processor.parent.isSome = decide (1 < config.n))
    (parentId : ∀ held, stream.processor.parent = some held →
      held.requestId = config.request.requestId)
    (unknown : stream.processor.requestStates.get? (config.childId stream.added) = none) :
    stream.add config kind = some { stream with
      processor := { stream.processor with
        parent := stream.processor.parent.map (adopt stream.added)
        requestStates := stream.processor.requestStates.set (config.childId stream.added)
          (RequestState.fromNewRequest config.zero
            { config.request with requestId := config.childId stream.added, outputKind := kind }
            config.prompt stream.added config.streamInterval) }
      added := stream.added + 1 } := by
  have isId : ((stream.processor.parent.map fun parent =>
      parent.getChildInfo stream.added).map Prod.snd).getD config.request.requestId =
      config.childId stream.added := by
    unfold StreamRequest.childId
    cases isParent : stream.processor.parent with
    | none =>
      rw [isParent] at hasParent
      rw [if_neg (of_decide_eq_false hasParent.symm)]
      rfl
    | some held =>
      rw [isParent] at hasParent
      rw [if_pos (of_decide_eq_true hasParent.symm), ← parentId held isParent]
      rfl
  unfold Stream.add
  rw [if_pos more]
  simp only [isId, OutputProcessor.addRequest, unknown, map_some]
  rw [Option.map_map]
  rfl

/-- Adding a completion begins with nothing in both runs. -/
theorem add_tracks (tracks : Tracks config delta cumulative) :
    ∃ deltaNext cumulativeNext, delta.add config .delta = some deltaNext ∧
      cumulative.add config .cumulative = some cumulativeNext ∧
      Tracks config deltaNext cumulativeNext := by
  by_cases more : delta.added < config.n
  · have apart : ∀ index < delta.added, config.childId index ≠ config.childId delta.added := by
      intro index inside same
      have := childId_injective config index delta.added (by omega) more same
      omega
    have unknown : delta.processor.requestStates.get? (config.childId delta.added) = none := by
      cases found : delta.processor.requestStates.get? (config.childId delta.added) with
      | none => rfl
      | some reqState =>
        obtain ⟨index, inside, isId, -⟩ := tracks.owned _ reqState found
        exact absurd isId.symm (apart index inside)
    have twinUnknown := tracks.states (config.childId delta.added)
    rw [unknown] at twinUnknown
    have deltaDone := add_parts config .delta delta more tracks.hasParent
      (fun held isHeld => (tracks.listed held isHeld).2.1) unknown
    have cumulativeDone := add_parts config .cumulative cumulative (by rw [tracks.added]; exact more)
      (by rw [tracks.parent, isSome_map]; exact tracks.hasParent)
      (by
        intro held isHeld
        rw [tracks.parent, map_eq_some_iff] at isHeld
        obtain ⟨before, isBefore, rfl⟩ := isHeld
        exact (tracks.listed before isBefore).2.1)
      (by rw [tracks.added]; exact twinUnknown)
    obtain ⟨noDelta, noCumulative⟩ := tracks.fresh delta.added (Nat.le_refl _)
    rw [pieces_eq, append_eq_nil_iff] at noDelta
    obtain ⟨owned, live⟩ := fresh_live config (config.childId delta.added) delta.added
    rw [tracks.added] at cumulativeDone
    refine ⟨_, _, deltaDone, cumulativeDone, ?_⟩
    constructor
    case added => rfl
    case room => exact more
    case states =>
      intro id
      simp only [get?_set]
      by_cases same : id = config.childId delta.added
      · rw [if_pos same, if_pos same]
        rfl
      · rw [if_neg same, if_neg same]
        exact tracks.states id
    case owned =>
      intro id reqState found
      rw [get?_set] at found
      split at found
      · rename_i same
        cases found
        exact ⟨delta.added, Nat.lt_succ_self _, same, same ▸ owned⟩
      · obtain ⟨index, inside, isId, ownedBefore⟩ := tracks.owned id reqState found
        exact ⟨index, Nat.lt_succ_of_lt inside, isId, ownedBefore⟩
    case parent =>
      simp only [tracks.parent]
      cases delta.processor.parent <;> rfl
    case hasParent =>
      simp only [isSome_map]
      exact tracks.hasParent
    case listed =>
      intro held isHeld
      obtain ⟨before, isBefore, rfl⟩ := map_eq_some_iff.mp isHeld
      obtain ⟨kind, parentId, all⟩ := tracks.listed before isBefore
      have many : 1 < config.n := by
        have has := tracks.hasParent
        rw [isBefore] at has
        exact of_decide_eq_true has.symm
      have isChild : config.childId delta.added = childReqId before.requestId delta.added := by
        rw [StreamRequest.childId, if_pos many, parentId]
      refine ⟨kind, parentId, ?_⟩
      intro id still
      rw [get?_set] at still
      simp only [adopt, ParentRequest.getChildInfo, ← isChild]
      by_cases same : id = config.childId delta.added
      · subst same
        split
        · assumption
        · exact mem_append_right _ mem_cons_self
      · rw [if_neg same] at still
        have inBefore := all id still
        split
        · exact inBefore
        · exact mem_append_left _ inBefore
    case deltaQueue => exact tracks.deltaQueue
    case cumulativeQueue => exact tracks.cumulativeQueue
    case fresh =>
      intro index later
      exact tracks.fresh index (Nat.le_of_succ_le later)
    case live =>
      intro id reqState found
      rw [get?_set] at found
      split at found
      · cases found
        change Live _ (takenOf delta.added delta.got) (waiting delta.added delta.processor.queue)
          (cumulative.pieces delta.added).getLast?
        rw [noDelta.1, noDelta.2, noCumulative]
        exact live
      · exact tracks.live id reqState found
    case ended =>
      intro index inside gone
      rw [get?_set] at gone
      split at gone
      · cases gone
      · rename_i different
        have before : index < delta.added := by
          have notSame : index ≠ delta.added := fun is => different (by rw [is])
          have : index < delta.added + 1 := inside
          omega
        exact tracks.ended index before gone
  · refine ⟨delta, cumulative, ?_, ?_, tracks⟩
    · exact if_neg more
    · exact if_neg (by rw [tracks.added]; exact more)

theorem init_tracks :
    Tracks config (Stream.init config .delta : Stream State Prob Logprob Experts Params)
      (Stream.init config .cumulative) := by
  have holds : ∀ kind : RequestOutputKind, Holds (RequestOutputCollector.init kind :
      RequestOutputCollector Prob Logprob Experts Params) (kind = .delta) := by
    intro kind
    constructor
    · rfl
    · rintro output ⟨⟩
    · intro index
      exact Nat.zero_le 1
  constructor
  case added => rfl
  case room => exact Nat.zero_le _
  case states => exact fun _ => rfl
  case owned =>
    intro id reqState found
    cases found
  case parent =>
    simp only [Stream.init]
    split <;> rfl
  case hasParent =>
    simp only [Stream.init]
    split <;> simp [*]
  case listed =>
    intro held isHeld
    simp only [Stream.init] at isHeld
    split at isHeld
    · cases isHeld
      refine ⟨rfl, rfl, ?_⟩
      intro id still
      cases still
    · cases isHeld
  case deltaQueue => exact holds .delta
  case cumulativeQueue => exact holds .cumulative
  case fresh => exact fun _ _ => ⟨rfl, rfl⟩
  case live =>
    intro id reqState found
    cases found
  case ended =>
    intro index inside
    exact absurd inside (Nat.not_lt_zero _)

theorem step_tracks (tracks : Tracks config delta cumulative)
    (step : Step State Entry Experts Params) (promised : Promised config delta step)
    (slices : KeepsSlices delta step) :
    ∃ deltaNext cumulativeNext, delta.step config .delta step = some deltaNext ∧
      cumulative.step config .cumulative step = some cumulativeNext ∧
      Tracks config deltaNext cumulativeNext := by
  cases step with
  | add => exact add_tracks config delta cumulative tracks
  | update request prompt => exact update_tracks config delta cumulative tracks request prompt
  | engineOutput output => exact output_tracks config delta cumulative tracks output promised slices
  | abort requestId => exact abort_tracks config delta cumulative tracks requestId slices
  | get => exact ⟨_, _, rfl, rfl, get_tracks config delta cumulative tracks⟩

theorem run_tracks (steps : List (Step State Entry Experts Params))
    (delta cumulative : Stream State Prob Logprob Experts Params)
    (tracks : Tracks config delta cumulative)
    (promised : Along config (Promised config) delta steps)
    (slices : Along config KeepsSlices delta steps) :
    ∃ deltaLast cumulativeLast, delta.run config .delta steps = some deltaLast ∧
      cumulative.run config .cumulative steps = some cumulativeLast ∧
      Tracks config deltaLast cumulativeLast := by
  induction steps generalizing delta cumulative with
  | nil => exact ⟨delta, cumulative, rfl, rfl, tracks⟩
  | cons step rest ih =>
    obtain ⟨deltaNext, cumulativeNext, deltaStep, cumulativeStep, next⟩ := step_tracks config delta
      cumulative tracks step promised.1 slices.1
    obtain ⟨deltaLast, cumulativeLast, deltaRun, cumulativeRun, last⟩ := ih deltaNext cumulativeNext
      next (promised.2 deltaNext deltaStep) (slices.2 deltaNext deltaStep)
    refine ⟨deltaLast, cumulativeLast, ?_, ?_, last⟩
    · rw [Stream.run, deltaStep]
      exact deltaRun
    · rw [Stream.run, cumulativeStep]
      exact cumulativeRun

/-- Every token is the letter a; a logprob is the number that the engine sends. -/
def numbered : Tokenizer Unit Nat Nat Nat :=
  ⟨fun _ _ _ => (['a'], ()), fun _ entry => entry, fun total entry => total + entry⟩

def loggedRequest : StreamRequest Unit Nat Nat Nat where
  tokenizer := numbered
  zero := 0
  streamInterval := 1
  request :=
    { requestId := ['r'], resumable := false, promptTokenIds := some [1], outputKind := .delta
      stop := ⟨[], StopStrings.none_empty⟩, minTokens := 0, includeStopStrInOutput := false
      decoder := some (), primed := [], logprobs := true }
  prompt := none
  n := 1
  session := by simp

/-- An engine output whose logprobs are its tokens. -/
def loggedOutput (newTokenIds : List Nat) (finishReason : Option FinishReason) :
    EngineCoreOutput Nat Unit Unit where
  requestId := ['r']
  newTokenIds := newTokenIds
  newLogprobs := some newTokenIds
  finishReason := finishReason
  stopReason := none
  kvTransferParams := none
  routedExperts := none

/-- One token, and then an abort, which has no new token. -/
def abortedRun : List (Step Unit Nat Unit Unit) :=
  [.add, .engineOutput (loggedOutput [5] none), .get, .abort ['r'], .get]

/-- An output before the first token still waits when the token comes. -/
def crowdedRun : List (Step Unit Nat Unit Unit) :=
  [.add, .engineOutput (loggedOutput [] none), .engineOutput (loggedOutput [5] (some .length)), .get]

/-- Two tokens that are merged in the collector, the second one the last. -/
def mergedRun : List (Step Unit Nat Unit Unit) :=
  [.add, .engineOutput (loggedOutput [5] none), .engineOutput (loggedOutput [6] (some .length)), .get]

end VllmDcu.DeltaRuns

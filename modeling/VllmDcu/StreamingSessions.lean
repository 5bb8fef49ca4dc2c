import VllmDcu.Requests
import VllmDcu.OutputProcessing

/-! A streaming session between the output processor and the scheduler: chunks go
one way and engine outputs the other, each in order. Both sides keep a queue of
chunks of their own and decide by themselves when one starts. -/
namespace VllmDcu.StreamingSessions
open Dict RequestOutputs Detokenizer OutputProcessing
open Requests (RequestStatus)
open List Option

/-- One request of the session, as each side sees it. -/
structure Chunk (State Digest : Type) where
  request : EngineCoreRequest State
  prompt : Option (List Char)
  engine : Requests.Request Digest

def Active (status : RequestStatus) : Prop :=
  status.isFinished = false ∧ status ≠ .waitingForStreamingReq

/-- What the front end checks of a request of the session: no stop strings, not
FINAL_ONLY. A new request is not finished. -/
structure Chunk.Valid {State Digest : Type} (chunk : Chunk State Digest) (requestId : RequestId)
    (goesOn : Bool) : Prop where
  requestId : chunk.request.requestId = requestId
  resumable : chunk.request.resumable = goesOn
  outputKind : chunk.request.outputKind ≠ .finalOnly
  stop : chunk.request.stop.stop = []
  engineResumable : chunk.engine.resumable = goesOn
  engineActive : Active chunk.engine.status
  engineQueue : chunk.engine.streamingQueue = none

/-- Any number of resumable chunks and the final request. -/
structure Session (State Entry Prob Logprob Digest : Type) where
  tokenizer : Tokenizer State Entry Prob Logprob
  zero : Prob
  streamInterval : Nat
  requestId : RequestId
  chunks : List (Chunk State Digest)
  final : Chunk State Digest
  chunksValid : ∀ chunk ∈ chunks, chunk.Valid requestId true
  finalValid : final.Valid requestId false

/-- What was known when an output arrived: the chunk the scheduler was running when
it made the output, and the chunk and prompt the output processor was at. -/
structure Attribution where
  produced : Nat
  finished : Bool
  current : Option Nat
  promptTokenIds : List Nat

/-- Both sides and what is in flight between them. `sent` and `received` count the
requests of the session. -/
structure System (State Prob Logprob Experts Params Entry Digest : Type) where
  front : OutputProcessor State Prob Logprob Experts Params
  sent : Nat
  toEngine : List (Chunk State Digest)
  engine : Option (Requests.Request Digest)
  received : Nat
  toFront : List (Nat × EngineCoreOutput Entry Experts Params)
  got : List (RequestOutput Prob Logprob Experts Params)
  log : List Attribution

variable {State Entry Prob Logprob Experts Params Digest : Type}

def Session.requests (session : Session State Entry Prob Logprob Digest) :
    List (Chunk State Digest) :=
  session.chunks ++ [session.final]

/-- The requests that are run: the final one only when there is no chunk. -/
def Session.runs (session : Session State Entry Prob Logprob Digest) : Nat :=
  max session.chunks.length 1

/-- `Scheduler.add_request` for the request of the session. -/
def engineAdd (engine : Option (Requests.Request Digest)) (request : Requests.Request Digest) :
    Option (Option (Requests.Request Digest)) :=
  match engine with
  | none =>
    some (some (if request.resumable then { request with streamingQueue := some [] } else request))
  | some existing =>
    let update := Requests.StreamingUpdate.fromRequest request
    if existing.status ≠ .waitingForStreamingReq then
      existing.streamingQueue.map fun queue =>
        some { existing with streamingQueue := some (queue ++ [update]) }
    else
      match update with
      | some update => (existing.updateAsSession update).map some
      -- finish_requests with FINISHED_ABORTED frees the request
      | none => some none

/-- The chunk the scheduler runs: the requests it took, less those in the queue. -/
def runningChunk (received : Nat) (request : Requests.Request Digest) : Nat :=
  received - 1 - (request.streamingQueue.getD []).length

/-- The chunk the output processor is at: the chunks it was given, less those in
its queue; none when the last one has completed. -/
def currentChunk (session : Session State Entry Prob Logprob Digest) (sent : Nat)
    (reqState : RequestState State Prob Logprob) : Option Nat :=
  match reqState.inputChunkQueue with
  | some queued => some (min sent session.runs - 1 - queued.length)
  | none => if reqState.streamingInput then none else some (min sent session.runs - 1)

def attribution (session : Session State Entry Prob Logprob Digest) (sent produced : Nat)
    (finished : Bool) (front : OutputProcessor State Prob Logprob Experts Params) : Attribution :=
  match front.requestStates.get? session.requestId with
  | none => ⟨produced, finished, none, []⟩
  | some reqState =>
    ⟨produced, finished, currentChunk session sent reqState, reqState.promptTokenIds.getD []⟩

def System.init (outputKind : RequestOutputKind) :
    System State Prob Logprob Experts Params Entry Digest where
  front := ⟨Dict.empty, none, RequestOutputCollector.init outputKind⟩
  sent := 0
  toEngine := []
  engine := none
  received := 0
  toFront := []
  got := []
  log := []

/-- One step of either side or of the consumer, in any order. -/
inductive Step (session : Session State Entry Prob Logprob Digest) :
    System State Prob Logprob Experts Params Entry Digest →
    System State Prob Logprob Experts Params Entry Digest → Prop where
  /-- The next request goes to the output processor first and then to the engine. -/
  | send {system} (chunk front) (next : session.requests[system.sent]? = some chunk)
      (added : system.front.addRequest session.zero session.streamInterval chunk.request
        chunk.prompt 0 = some front) :
      Step session system { system with
        front := front, sent := system.sent + 1, toEngine := system.toEngine ++ [chunk] }
  | receive {system} (chunk rest engine) (head : system.toEngine = chunk :: rest)
      (added : engineAdd system.engine chunk.engine = some engine) :
      Step session system { system with
        toEngine := rest, engine := engine, received := system.received + 1 }
  /-- Scheduling, preemption and computed tokens change neither the queue nor that
  the request is a session. -/
  | work {system} (before after : Requests.Request Digest) (held : system.engine = some before)
      (active : Active before.status) (still : Active after.status)
      (queue : after.streamingQueue = before.streamingQueue)
      (resumable : after.resumable = before.resumable) :
      Step session system { system with engine := some after }
  | produce {system} (request : Requests.Request Digest) (output : EngineCoreOutput Entry Experts Params)
      (held : system.engine = some request) (active : Active request.status)
      (mine : output.requestId = session.requestId) (unfinished : output.finishReason = none) :
      Step session system { system with
        toFront := system.toFront ++ [(runningChunk system.received request, output)] }
  /-- The running chunk stops: `stopped` is the request with its finished status. -/
  | stop {system} (request stopped handled : Requests.Request Digest) (finished : Bool)
      (output : EngineCoreOutput Entry Experts Params)
      (held : system.engine = some request) (active : Active request.status)
      (queue : stopped.streamingQueue = request.streamingQueue)
      (resumable : stopped.resumable = request.resumable)
      (mine : output.requestId = session.requestId) (reason : output.finishReason.isSome = true)
      (handling : stopped.handleStopped = some (finished, handled)) :
      Step session system { system with
        engine := if finished then none else some handled
        toFront := system.toFront ++ [(runningChunk system.received request, output)] }
  | deliver {system} (produced output rest after) (head : system.toFront = (produced, output) :: rest)
      (processed : system.front.processOutput session.tokenizer output = some after) :
      Step session system { system with
        front := after.1
        toFront := rest
        log := system.log ++ [attribution session system.sent produced
          output.finishReason.isSome system.front] }
  | get {system} (output) (held : system.front.queue.output = some output) :
      Step session system { system with
        front := { system.front with queue := system.front.queue.take }
        got := system.got ++ [output] }

/-- A state of the session after any steps. -/
def Reachable (session : Session State Entry Prob Logprob Digest)
    (system : System State Prob Logprob Experts Params Entry Digest) : Prop :=
  ∃ outputKind, Relation.ReflTransGen (Step session) (System.init outputKind) system

def System.delivered (system : System State Prob Logprob Experts Params Entry Digest) :
    List (RequestOutput Prob Logprob Experts Params) :=
  system.got ++ system.front.queue.output.toList

/-- The output processor has let go of the session. -/
def System.Closed (session : Session State Entry Prob Logprob Digest)
    (system : System State Prob Logprob Experts Params Entry Digest) : Prop :=
  0 < system.sent ∧ system.front.requestStates.get? session.requestId = none

/-- Everything is sent and has arrived, and the engine runs no chunk. -/
def System.Settled (session : Session State Entry Prob Logprob Digest)
    (system : System State Prob Logprob Experts Params Entry Digest) : Prop :=
  system.sent = session.requests.length ∧ system.toEngine = [] ∧ system.toFront = [] ∧
    ∀ request, system.engine = some request → ¬ Active request.status

/-- The prompt of the first chunks. -/
def Session.prompts (session : Session State Entry Prob Logprob Digest) (count : Nat) : List Nat :=
  (session.requests.take count).flatMap fun chunk => chunk.request.promptTokenIds.getD []

/-- What the two sides agree on, in every state. -/
structure Agreement (session : Session State Entry Prob Logprob Digest)
    (system : System State Prob Logprob Experts Params Entry Digest) : Prop where
  /-- An output belongs to the chunk that the scheduler was running. -/
  attributed : ∀ entry ∈ system.log, entry.current = some entry.produced ∧
    entry.promptTokenIds = session.prompts (entry.produced + 1)
  /-- One finished output is delivered, when the session is closed. -/
  once : (system.delivered.filter RequestOutput.finished).length = 0 ∧ ¬ system.Closed session ∨
    (system.delivered.filter RequestOutput.finished).length = 1 ∧ system.Closed session
  /-- It comes when every chunk has finished and no output is left to come. -/
  last : system.Closed session →
    (system.log.filter Attribution.finished).map Attribution.produced = List.range session.runs ∧
      system.toFront = [] ∧ ∀ request, system.engine = some request → ¬ Active request.status
  /-- In the end neither side holds the request. -/
  released : system.Settled session → system.Closed session ∧ system.engine = none

variable (session : Session State Entry Prob Logprob Digest)

theorem requests_length : session.requests.length = session.chunks.length + 1 := by
  simp [Session.requests]

variable (index : Nat) (chunk : Chunk State Digest)

theorem request_chunk (inside : index < session.chunks.length)
    (found : session.requests[index]? = some chunk) : chunk.Valid session.requestId true := by
  rw [Session.requests, getElem?_append_left inside] at found
  exact session.chunksValid chunk (mem_of_getElem? found)

theorem request_final (found : session.requests[session.chunks.length]? = some chunk) :
    chunk.Valid session.requestId false := by
  simp only [Session.requests, getElem?_concat_length, some.injEq] at found
  exact found ▸ session.finalValid

theorem request_le (found : session.requests[index]? = some chunk) :
    index ≤ session.chunks.length := by
  have inside := (List.getElem?_eq_some_iff.mp found).1
  rw [requests_length] at inside
  omega

theorem prompts_succ (found : session.requests[index]? = some chunk) :
    session.prompts (index + 1) =
      session.prompts index ++ chunk.request.promptTokenIds.getD [] := by
  unfold Session.prompts
  rw [take_add_one, found]
  simp

def Chunk.update (chunk : Chunk State Digest) : StreamingUpdate :=
  ⟨chunk.prompt, chunk.request.promptTokenIds, false⟩

/-- The chunks the output processor holds back while it is at `current`: those up
to `upTo`, the last one marked when the final request has come. -/
def Session.held (session : Session State Entry Prob Logprob Digest) (current upTo : Nat)
    (closing : Bool) : List StreamingUpdate :=
  let updates := ((session.requests.take upTo).drop (current + 1)).map Chunk.update
  if closing then markFinal updates else updates

theorem markFinal_length (updates : List StreamingUpdate) :
    (markFinal updates).length = updates.length := by
  induction updates with
  | nil => rfl
  | cons update rest ih =>
    cases rest with
    | nil => rfl
    | cons next rest => simpa [markFinal] using ih

theorem markFinal_cons (update : StreamingUpdate) (rest : List StreamingUpdate) :
    markFinal (update :: rest) =
      (if rest = [] then { update with final := true } else update) :: markFinal rest := by
  cases rest <;> rfl

variable (current : Nat)

theorem held_length {upTo : Nat} (closing : Bool) (bound : upTo ≤ session.chunks.length) :
    (session.held current upTo closing).length = upTo - (current + 1) := by
  have length := requests_length session
  unfold Session.held
  cases closing <;> simp [markFinal_length] <;> omega

theorem held_last (closing : Bool) : session.held current (current + 1) closing = [] := by
  have nothing : (session.requests.take (current + 1)).drop (current + 1) = [] := by
    apply drop_eq_nil_of_le
    rw [length_take]
    exact Nat.min_le_left _ _
  unfold Session.held
  rw [nothing]
  cases closing <;> rfl

theorem held_next {upTo : Nat} {closing : Bool} (inside : current + 1 < upTo)
    (bound : upTo ≤ session.chunks.length) :
    ∃ chunk, session.requests[current + 1]? = some chunk ∧
      session.held current upTo closing =
        { chunk.update with final := closing && decide (current + 2 = upTo) } ::
          session.held (current + 1) upTo closing := by
  have length := requests_length session
  have found : session.requests[current + 1]? = some session.requests[current + 1] :=
    getElem?_eq_getElem (by omega)
  refine ⟨_, found, ?_⟩
  have split : (session.requests.take upTo).drop (current + 1) =
      session.requests[current + 1] :: (session.requests.take upTo).drop (current + 2) := by
    rw [drop_eq_getElem_cons (by rw [length_take]; omega)]
    simp
  unfold Session.held
  rw [split]
  cases closing with
  | false => simp [Chunk.update]
  | true =>
    simp only [map_cons, ↓reduceIte, Bool.true_and, markFinal_cons]
    by_cases last : current + 2 = upTo
    · simp [last]
    · simp only [map_eq_nil_iff, drop_eq_nil_iff, length_take, last, decide_false, Chunk.update]
      rw [if_neg (by omega)]

/-- The request state of the session, apart from its queue. -/
structure FrontState (session : Session State Entry Prob Logprob Digest)
    (reqState : RequestState State Prob Logprob) : Prop where
  requestId : reqState.requestId = session.requestId
  outputKind : reqState.outputKind ≠ .finalOnly
  stop : reqState.detokenizer.stop.stop = []

/-- The output processor after `sent` requests and the last outputs of `current`
chunks. -/
inductive FrontAt (session : Session State Entry Prob Logprob Digest)
    (front : OutputProcessor State Prob Logprob Experts Params) : Nat → Nat → Prop where
  | unsent (absent : front.requestStates.get? session.requestId = none) : FrontAt session front 0 0
  | running (sent current reqState)
      (found : front.requestStates.get? session.requestId = some reqState)
      (state : FrontState session reqState)
      (prompt : reqState.promptTokenIds.getD [] = session.prompts (current + 1))
      (below : current < min sent session.runs) (bound : sent ≤ session.chunks.length + 1)
      (queue : reqState.inputChunkQueue = if session.chunks.length = 0 then none
        else some (session.held current (min sent session.chunks.length)
          (decide (sent = session.chunks.length + 1))))
      (streaming : reqState.streamingInput = !(decide (sent = session.chunks.length + 1) &&
        decide (current + 1 = min sent session.runs))) :
      FrontAt session front sent current
  /-- The last chunk it was given has completed. -/
  | idle (sent reqState) (found : front.requestStates.get? session.requestId = some reqState)
      (state : FrontState session reqState)
      (prompt : reqState.promptTokenIds.getD [] = session.prompts sent)
      (positive : 0 < sent) (bound : sent ≤ session.chunks.length)
      (queue : reqState.inputChunkQueue = none) (streaming : reqState.streamingInput = true) :
      FrontAt session front sent sent
  | closed (absent : front.requestStates.get? session.requestId = none) :
      FrontAt session front (session.chunks.length + 1) session.runs

theorem prompts_zero : session.prompts 0 = [] := by
  simp [Session.prompts]

theorem put_streamFinished (queue after : RequestOutputCollector Prob Logprob Experts Params)
    (put : queue.put streamFinished = some after) : after.pendingFinished = true := by
  unfold RequestOutputCollector.put at put
  cases held : queue.output with
  | none =>
    rw [held] at put
    cases put
    rfl
  | some output =>
    simp only [held, RequestOutput.add, streamFinished, foldlM_nil, map_eq_some_iff] at put
    obtain ⟨-, ⟨outputs, -, rfl⟩, rfl⟩ := put
    simp [RequestOutputCollector.pendingFinished]

variable (front : OutputProcessor State Prob Logprob Experts Params)

/-- Sending the next request: it starts, waits, marks the end, or closes. -/
theorem front_send {front' : OutputProcessor State Prob Logprob Experts Params} {sent current : Nat}
    {chunk : Chunk State Digest} (at_ : FrontAt session front sent current)
    (next : session.requests[sent]? = some chunk)
    (added : front.addRequest session.zero session.streamInterval chunk.request chunk.prompt 0 =
      some front') :
    FrontAt session front' (sent + 1) current ∧ front'.parent = front.parent ∧
      front'.queue.pendingFinished =
        (front.queue.pendingFinished || (front'.requestStates.get? session.requestId).isNone) := by
  have upTo := request_le session sent chunk next
  have id : chunk.request.requestId = session.requestId := by
    by_cases last : sent = session.chunks.length
    · subst last
      exact (request_final session chunk next).requestId
    · exact (request_chunk session sent chunk (by omega) next).requestId
  unfold OutputProcessor.addRequest at added
  rw [id] at added
  cases at_ with
  | unsent absent =>
    simp only [absent, some.injEq] at added
    subst added
    refine ⟨?_, rfl, by simp⟩
    have promptIs : session.prompts 1 = chunk.request.promptTokenIds.getD [] := by
      rw [prompts_succ session 0 chunk next, prompts_zero, nil_append]
    by_cases only : session.chunks.length = 0
    · have valid := request_final session chunk (only ▸ next)
      apply FrontAt.running 1 0 _ (by rw [get?_set, if_pos rfl])
      · exact ⟨id, valid.outputKind, valid.stop⟩
      · exact promptIs.symm
      · simp [Session.runs, only]
      · omega
      · simp [RequestState.fromNewRequest, valid.resumable, only]
      · simp [RequestState.fromNewRequest, valid.resumable, only, Session.runs]
    · have valid := request_chunk session 0 chunk (by omega) next
      apply FrontAt.running 1 0 _ (by rw [get?_set, if_pos rfl])
      · exact ⟨id, valid.outputKind, valid.stop⟩
      · exact promptIs.symm
      · simp only [Session.runs]
        omega
      · omega
      · have one : min 1 session.chunks.length = 0 + 1 := by omega
        rw [if_neg only, one, held_last]
        simp [RequestState.fromNewRequest, valid.resumable]
      · have notLast : ¬ 1 = session.chunks.length + 1 := by omega
        simp only [RequestState.fromNewRequest, valid.resumable, notLast, decide_false,
          Bool.false_and, Bool.not_false]
  | running sent current reqState found state prompt below bound queue streaming =>
    have some_ : session.chunks.length ≠ 0 := by
      simp only [Session.runs] at below
      omega
    have notClosing : decide (sent = session.chunks.length + 1) = false := by
      simp only [decide_eq_false_iff_not]
      omega
    have upToSent : min sent session.chunks.length = sent := by omega
    rw [if_neg some_, notClosing, upToSent] at queue
    have goesOn : reqState.streamingInput = true := by rw [streaming, notClosing]; rfl
    simp only [Session.runs] at below
    simp only [found] at added
    by_cases last : sent = session.chunks.length
    · -- the final request: mark the last chunk, which is queued or running
      subst last
      have valid := request_final session chunk next
      simp only [OutputProcessor.updateStreamingRequestState, valid.resumable, queue, state.requestId,
        ↓reduceIte] at added
      have length := held_length session current false (Nat.le_refl _)
      cases heldIs : session.held current session.chunks.length false with
      | nil =>
        rw [heldIs] at added length
        simp only [some.injEq] at added
        subst added
        refine ⟨?_, rfl, by simp⟩
        simp only [length_nil] at length
        have isLast : current + 1 = session.chunks.length := by omega
        apply FrontAt.running _ current _ (by rw [get?_set, if_pos rfl])
        · exact ⟨rfl, state.outputKind, state.stop⟩
        · exact prompt
        · simp only [Session.runs]
          omega
        · omega
        · have closing : min (session.chunks.length + 1) session.chunks.length = current + 1 := by
            omega
          rw [if_neg some_, closing, held_last]
        · simp only [Session.runs, decide_true, Bool.true_and]
          have : current + 1 = min (session.chunks.length + 1) (max session.chunks.length 1) := by
            omega
          simp [this]
      | cons first rest =>
        rw [heldIs] at added length
        simp only [some.injEq] at added
        subst added
        refine ⟨?_, rfl, by simp⟩
        simp only [length_cons] at length
        apply FrontAt.running _ current _ (by rw [get?_set, if_pos rfl])
        · exact ⟨rfl, state.outputKind, state.stop⟩
        · exact prompt
        · simp only [Session.runs]
          omega
        · omega
        · have closing : min (session.chunks.length + 1) session.chunks.length =
              session.chunks.length := by omega
          rw [if_neg some_, closing]
          simp only [decide_true, ← heldIs]
          rfl
        · have more : ¬ current + 1 =
              min (session.chunks.length + 1) (max session.chunks.length 1) := by omega
          simp only [goesOn, Session.runs, more, decide_false, Bool.and_false, Bool.not_false]
    · have valid := request_chunk session sent chunk (by omega) next
      simp only [OutputProcessor.updateStreamingRequestState, valid.resumable, queue, state.requestId,
        Bool.true_eq_false, ↓reduceIte, some.injEq] at added
      subst added
      refine ⟨?_, rfl, by simp⟩
      have stillOpen : decide (sent + 1 = session.chunks.length + 1) = false := by
        simp only [decide_eq_false_iff_not]
        omega
      apply FrontAt.running _ current _ (by rw [get?_set, if_pos rfl])
      · exact ⟨rfl, state.outputKind, state.stop⟩
      · exact prompt
      · simp only [Session.runs]
        omega
      · omega
      · have grown : min (sent + 1) session.chunks.length = sent + 1 := by omega
        have length := requests_length session
        rw [if_neg some_, stillOpen, grown]
        simp only [Session.held, Bool.false_eq_true, ↓reduceIte, some.injEq]
        rw [take_add_one, next, toList_some,
          drop_append_of_le_length (by rw [length_take]; omega), map_append]
        rfl
      · rw [stillOpen]
        exact goesOn
  | idle sent reqState found state prompt positive bound queue streaming =>
    simp only [found] at added
    by_cases last : sent = session.chunks.length
    · -- the engine already finished: this closes the session
      subst last
      have valid := request_final session chunk next
      simp only [OutputProcessor.updateStreamingRequestState, valid.resumable, queue,
        state.requestId, ↓reduceIte, map_eq_some_iff] at added
      obtain ⟨finished, put, rfl⟩ := added
      refine ⟨?_, rfl, by simp [put_streamFinished _ _ put]⟩
      have runs : session.chunks.length = session.runs := by
        simp only [Session.runs]
        omega
      have closed : FrontAt session (⟨front.requestStates.erase session.requestId, front.parent,
          finished⟩ : OutputProcessor State Prob Logprob Experts Params)
          (session.chunks.length + 1) session.runs := .closed (by simp)
      rw [← runs] at closed
      exact closed
    · have valid := request_chunk session sent chunk (by omega) next
      simp only [OutputProcessor.updateStreamingRequestState, valid.resumable, queue,
        state.requestId, Bool.true_eq_false, ↓reduceIte, some.injEq] at added
      subst added
      refine ⟨?_, rfl, by simp⟩
      have stillOpen : decide (sent + 1 = session.chunks.length + 1) = false := by
        simp only [decide_eq_false_iff_not]
        omega
      apply FrontAt.running _ sent _ (by rw [get?_set, if_pos rfl])
      · exact ⟨state.requestId, state.outputKind, state.stop⟩
      · simp only [RequestState.applyStreamingUpdate, getD_some]
        rw [prompt, prompts_succ session sent chunk next]
      · simp only [Session.runs]
        omega
      · omega
      · have grown : min (sent + 1) session.chunks.length = sent + 1 := by omega
        rw [if_neg (by omega), stillOpen, grown, held_last]
      · rw [stillOpen]
        rfl
  | closed absent => omega

/-- An output of the running chunk leaves the output processor at it, or at the next
one, idle or closed when the output finishes it. -/
theorem front_deliver {sent current : Nat} {output : EngineCoreOutput Entry Experts Params}
    {after : OutputProcessor State Prob Logprob Experts Params × Bool}
    (at_ : FrontAt session front sent current) (below : current < min sent session.runs)
    (alone : front.parent = none) (mine : output.requestId = session.requestId)
    (done : front.processOutput session.tokenizer output = some after) :
    FrontAt session after.1 sent (if output.finishReason.isSome then current + 1 else current) ∧
      after.1.parent = none ∧ after.1.queue.pendingFinished =
        (front.queue.pendingFinished || (after.1.requestStates.get? session.requestId).isNone) := by
  cases at_ with
  | unsent absent => omega
  | idle sent reqState found state prompt positive bound queue streaming => omega
  | closed absent => omega
  | running sent current reqState found state prompt below bound queue streaming =>
    rcases processOutput_cases session.tokenizer front output after done with
      unknown | ⟨known, digested, made, put, isKnown, digest, make, delivered, left⟩
    · rw [mine, found] at unknown
      exact absurd unknown.1 (by simp)
    · rw [mine, found, some.injEq] at isKnown
      subst isKnown
      have reason := digest_noStop session.tokenizer reqState output digested state.stop digest
      have digestSame := digest_same session.tokenizer reqState digest
      obtain ⟨makeSame, cases_⟩ := makeRequestOutput_cases _ make
      have madeSame := digestSame.trans makeSame
      have same := madeSame.trans (extendShared_same made.1 put)
      have refreshed := refreshLogprobs_same digested.1.requestIndex
        digested.1.logprobsProcessor.logprobs front.queue
      rw [reason] at left cases_
      -- no parent: the output is put as it is, finished unless the session goes on
      have flags : made.2.1 = none ∧ put.pendingFinished = (front.queue.pendingFinished ||
          (output.finishReason.isSome && !reqState.streamingInput)) := by
        rcases cases_ with ⟨silent, madeIs⟩ | ⟨sends, completion, -, -, -, parentless | held⟩
        · have unfinished : output.finishReason.isSome = false := by
            cases finished : output.finishReason.isSome with
            | false => rfl
            | true => rw [finished, sends_finished] at silent; cases silent
          rw [madeIs] at delivered
          simp only [alone, RequestState.deliver, refreshAggregated, some.injEq] at delivered
          rw [madeIs, ← delivered, refreshed.finished, unfinished]
          simp [alone]
        · rw [parentless.2] at delivered ⊢
          simp only [refreshAggregated, RequestState.deliver, madeSame.streamingInput] at delivered
          cases goesOn : reqState.streamingInput with
          | true =>
            simp only [goesOn, ↓reduceIte] at delivered
            rw [(put_single delivered).2.1, refreshed.finished]
            simp
          | false =>
            simp only [goesOn, Bool.false_eq_true, ↓reduceIte] at delivered
            rw [(put_single delivered).2.1, refreshed.finished]
            simp
        · obtain ⟨parent, -, isParent, -⟩ := held
          rw [alone] at isParent
          cases isParent
      have afterState : FrontState session (made.1.extendShared put) :=
        ⟨same.requestId.trans state.requestId, by rw [same.outputKind]; exact state.outputKind,
          by rw [same.stop]; exact state.stop⟩
      rw [afterState.requestId, flags.1] at left
      cases finished : output.finishReason.isSome with
      | false =>
        rw [finished] at left
        simp only [Bool.false_eq_true, ↓reduceIte] at left ⊢
        rw [left]
        refine ⟨?_, rfl, by simp [flags.2, finished]⟩
        exact .running sent current _ (by rw [get?_set, if_pos rfl]) afterState
          (by rw [same.promptTokenIds]; exact prompt) below bound
          (same.inputChunkQueue.trans queue) (same.streamingInput.trans streaming)
      | true =>
        rw [finished] at left flags
        simp only [OutputProcessor.freeCompleted, same.streamingInput, afterState.requestId] at left
        cases goesOn : reqState.streamingInput with
        | false =>
          -- the session was waiting for this output: it closes
          rw [goesOn] at streaming left
          have ends : sent = session.chunks.length + 1 ∧ current + 1 = min sent session.runs := by
            simpa using streaming.symm
          rw [left]
          refine ⟨?_, rfl, by simp [flags.2, goesOn]⟩
          have isRuns : current + 1 = session.runs := by
            simp only [Session.runs] at ends ⊢
            omega
          rw [isRuns, ends.1]
          exact .closed (by simp)
        | true =>
          rw [goesOn] at streaming left
          simp only [↓reduceIte, same.inputChunkQueue] at left
          have some_ : session.chunks.length ≠ 0 := by
            have open_ : ¬ (sent = session.chunks.length + 1 ∧
                current + 1 = min sent session.runs) := by
              rw [not_and_or]
              simpa using streaming.symm
            omega
          rw [if_neg some_] at queue
          have runs : session.runs = session.chunks.length := by
            simp only [Session.runs]
            omega
          rw [runs] at below streaming
          have open_ : ¬ (sent = session.chunks.length + 1 ∧
              current + 1 = min sent session.chunks.length) := by
            rw [not_and_or]
            simpa using streaming.symm
          by_cases more : current + 1 < min sent session.chunks.length
          · -- the next chunk was queued and starts
            obtain ⟨chunk, next, heldIs⟩ := held_next session current more (Nat.min_le_right _ _)
            rw [queue, heldIs] at left
            rw [left]
            refine ⟨?_, rfl, by simp [flags.2, goesOn]⟩
            apply FrontAt.running sent (current + 1) _ (by rw [get?_set, if_pos rfl])
            · exact ⟨afterState.requestId, afterState.outputKind, afterState.stop⟩
            · simp only [RequestState.applyStreamingUpdate, getD_some, Chunk.update]
              rw [same.promptTokenIds, prompt, prompts_succ session (current + 1) chunk next]
            · omega
            · exact bound
            · rw [if_neg some_]
            · rw [runs]
              rfl
          · -- it was the last one so far
            have isLast : current + 1 = min sent session.chunks.length := by omega
            have notAll : sent = current + 1 := by omega
            rw [← isLast, held_last] at queue
            rw [queue] at left
            rw [left]
            refine ⟨?_, rfl, by simp [flags.2, goesOn]⟩
            subst notAll
            apply FrontAt.idle (current + 1) _ (by rw [get?_set, if_pos rfl])
            · exact ⟨rfl, afterState.outputKind, afterState.stop⟩
            · rw [← prompt]
              exact congrArg (Option.getD · []) same.promptTokenIds
            · omega
            · omega
            · rfl
            · rfl

/-- The scheduler after `received` requests and the stops of `current` chunks. -/
inductive EngineAt (session : Session State Entry Prob Logprob Digest)
    (engine : Option (Requests.Request Digest)) : Nat → Nat → Prop where
  | unreceived (absent : engine = none) : EngineAt session engine 0 0
  | running (received current request) (held : engine = some request)
      (active : Active request.status) (below : current < min received session.runs)
      (bound : received ≤ session.chunks.length + 1)
      (resumable : request.resumable = decide (session.chunks.length ≠ 0))
      (queue : request.streamingQueue = if session.chunks.length = 0 then none
        else some (((session.requests.take received).drop (current + 1)).map fun chunk =>
          Requests.StreamingUpdate.fromRequest chunk.engine)) :
      EngineAt session engine received current
  | waiting (received request) (held : engine = some request)
      (status : request.status = .waitingForStreamingReq) (resumable : request.resumable = true)
      (queue : request.streamingQueue = some []) (positive : 0 < received)
      (bound : received ≤ session.chunks.length) : EngineAt session engine received received
  | gone (absent : engine = none) : EngineAt session engine (session.chunks.length + 1) session.runs

variable (request : Requests.Request Digest)

theorem updateAsSession_session (session : Requests.Request Digest)
    (update : Requests.StreamingUpdate) (done : request.updateAsSession update = some session) :
    session.streamingQueue = request.streamingQueue ∧ session.resumable = request.resumable ∧
      session.status = .waiting := by
  unfold Requests.Request.updateAsSession at done
  split at done
  · cases done
  · cases done
    exact ⟨rfl, rfl, rfl⟩

theorem waiting_active : Active .waiting := ⟨rfl, by simp⟩

/-- The scheduler takes the next request: it starts, is queued, or ends the session. -/
theorem engine_receive {engine engine' : Option (Requests.Request Digest)} {received current : Nat}
    {chunk : Chunk State Digest} (at_ : EngineAt session engine received current)
    (next : session.requests[received]? = some chunk)
    (added : engineAdd engine chunk.engine = some engine') :
    EngineAt session engine' (received + 1) current := by
  have upTo := request_le session received chunk next
  cases at_ with
  | unreceived absent =>
    subst absent
    simp only [engineAdd, some.injEq] at added
    subst added
    by_cases only : session.chunks.length = 0
    · have valid := request_final session chunk (only ▸ next)
      rw [valid.engineResumable]
      exact .running 1 0 _ rfl valid.engineActive (by simp only [Session.runs]; omega) (by omega)
        (by simp [valid.engineResumable, only]) (by simp [valid.engineQueue, only])
    · have valid := request_chunk session 0 chunk (by omega) next
      rw [valid.engineResumable]
      apply EngineAt.running 1 0 _ rfl
      · exact valid.engineActive
      · simp only [Session.runs]
        omega
      · omega
      · simp [only]
      · have nothing : (session.requests.take 1).drop 1 = [] := by
          apply drop_eq_nil_of_le
          rw [length_take]
          exact Nat.min_le_left _ _
        simp [only, nothing]
  | running received current request held active below bound resumable queue =>
    subst held
    have some_ : session.chunks.length ≠ 0 := by
      omega
    simp only [engineAdd, active.2, ne_eq, not_false_eq_true, ↓reduceIte, queue, if_neg some_,
      map_some, some.injEq] at added
    subst added
    apply EngineAt.running _ current _ rfl
    · exact active
    · omega
    · omega
    · exact resumable
    · have length := requests_length session
      rw [if_neg some_, take_add_one, next, toList_some,
        drop_append_of_le_length (by rw [length_take]; omega), map_append]
      rfl
  | waiting received request held status resumable queue positive bound =>
    subst held
    by_cases last : received = session.chunks.length
    · subst last
      have valid := request_final session chunk next
      simp only [engineAdd, status, ne_eq, not_true_eq_false, ↓reduceIte,
        Requests.StreamingUpdate.fromRequest, valid.engineResumable, Bool.false_eq_true,
        some.injEq] at added
      subst added
      have runs : session.chunks.length = session.runs := by
        simp only [Session.runs]
        omega
      have gone : EngineAt session (none : Option (Requests.Request Digest))
          (session.chunks.length + 1) session.runs := .gone rfl
      rw [← runs] at gone
      exact gone
    · have valid := request_chunk session received chunk (by omega) next
      simp only [engineAdd, status, ne_eq, not_true_eq_false, ↓reduceIte,
        Requests.StreamingUpdate.fromRequest, valid.engineResumable, map_eq_some_iff] at added
      obtain ⟨started, update, rfl⟩ := added
      obtain ⟨sameQueue, sameResumable, isWaiting⟩ := updateAsSession_session _ _ _ update
      apply EngineAt.running (received + 1) received _ rfl
      · rw [isWaiting]
        exact waiting_active
      · simp only [Session.runs]
        omega
      · omega
      · rw [sameResumable, resumable]
        simp only [ne_eq, Bool.true_eq, decide_eq_true_eq]
        omega
      · have nothing : (session.requests.take (received + 1)).drop (received + 1) = [] := by
          apply drop_eq_nil_of_le
          rw [length_take]
          exact Nat.min_le_left _ _
        rw [if_neg (by omega), nothing, sameQueue, queue]
        rfl
  | gone absent => omega

/-- The running chunk stops: the next one starts, the session waits, or it ends. -/
theorem engine_stop {stopped handled : Requests.Request Digest} {finished : Bool}
    {received current : Nat} (at_ : EngineAt session (some request) received current)
    (active : Active request.status) (sameQueue : stopped.streamingQueue = request.streamingQueue)
    (sameResumable : stopped.resumable = request.resumable)
    (handling : stopped.handleStopped = some (finished, handled)) :
    current < min received session.runs ∧
      EngineAt session (if finished then none else some handled) received (current + 1) := by
  cases at_ with
  | unreceived absent => cases absent
  | gone absent => cases absent
  | waiting received _ held status _ _ _ _ =>
    cases held
    exact absurd status active.2
  | running received current _ held _ below bound resumable queue =>
    cases held
    refine ⟨below, ?_⟩
    rw [resumable] at sameResumable
    rw [queue] at sameQueue
    have total := requests_length session
    simp only [Session.runs] at below
    by_cases only : session.chunks.length = 0
    · have plain : stopped.resumable = false := by rw [sameResumable]; simp [only]
      simp only [Requests.Request.handleStopped, plain, Bool.not_false, ↓reduceIte,
        some.injEq, Prod.mk.injEq] at handling
      obtain ⟨rfl, -⟩ := handling
      have ends : received = session.chunks.length + 1 ∧ current + 1 = session.runs := by
        simp only [Session.runs]
        omega
      rw [ends.1, ends.2]
      exact .gone rfl
    · have goesOn : stopped.resumable = true := by rw [sameResumable]; simp [only]
      rw [if_neg only] at sameQueue
      by_cases more : current + 1 < received
      · have found : session.requests[current + 1]? = some session.requests[current + 1] :=
          getElem?_eq_getElem (by omega)
        have split : (session.requests.take received).drop (current + 1) =
            session.requests[current + 1] :: (session.requests.take received).drop (current + 2) := by
          rw [drop_eq_getElem_cons (by rw [length_take]; omega)]
          simp
        rw [split, map_cons] at sameQueue
        by_cases last : current + 1 = session.chunks.length
        · -- the sentinel of the final request
          have valid := request_final session _ (by rw [← last]; exact found)
          have sentinel : Requests.StreamingUpdate.fromRequest
              session.requests[current + 1].engine = none := by
            simp only [Requests.StreamingUpdate.fromRequest]
            rw [valid.engineResumable]
            rfl
          rw [sentinel] at sameQueue
          simp only [Requests.Request.handleStopped, goesOn, sameQueue, Bool.not_true,
            Bool.false_eq_true, ↓reduceIte, some.injEq, Prod.mk.injEq] at handling
          obtain ⟨rfl, -⟩ := handling
          have ends : received = session.chunks.length + 1 ∧ current + 1 = session.runs := by
            simp only [Session.runs]
            omega
          rw [ends.1, ends.2]
          exact .gone rfl
        · have valid := request_chunk session (current + 1) _ (by omega) found
          have update : ∃ update, Requests.StreamingUpdate.fromRequest
              session.requests[current + 1].engine = some update := by
            simp only [Requests.StreamingUpdate.fromRequest]
            rw [valid.engineResumable]
            exact ⟨_, rfl⟩
          obtain ⟨update, isUpdate⟩ := update
          rw [isUpdate] at sameQueue
          simp only [Requests.Request.handleStopped, goesOn, sameQueue, Bool.not_true,
            Bool.false_eq_true, ↓reduceIte, map_eq_some_iff, Prod.mk.injEq] at handling
          obtain ⟨started, taken, rfl, rfl⟩ := handling
          obtain ⟨startedQueue, startedResumable, isWaiting⟩ := updateAsSession_session _ _ _ taken
          simp only [Bool.false_eq_true, ↓reduceIte]
          apply EngineAt.running received (current + 1) _ rfl
          · rw [isWaiting]
            exact waiting_active
          · simp only [Session.runs]
            omega
          · exact bound
          · rw [startedResumable]
            exact goesOn.symm.trans sameResumable
          · rw [if_neg only, startedQueue]
      · have isLast : received = current + 1 := by omega
        have nothing : (session.requests.take received).drop (current + 1) = [] := by
          apply drop_eq_nil_of_le
          rw [length_take]
          omega
        rw [nothing, map_nil] at sameQueue
        simp only [Requests.Request.handleStopped, goesOn, sameQueue, Bool.not_true,
          Bool.false_eq_true, ↓reduceIte, some.injEq, Prod.mk.injEq] at handling
        obtain ⟨rfl, rfl⟩ := handling
        subst isLast
        exact .waiting (current + 1) _ rfl rfl rfl rfl (by omega) (by omega)

/-- The outputs in flight: each is of the chunk that the outputs before it leave the
output processor at, and the last stop leaves it where the scheduler is. -/
def InOrder (requestId : RequestId) (bound : Nat) :
    Nat → Nat → List (Nat × EngineCoreOutput Entry Experts Params) → Prop
  | current, stopped, [] => current = stopped
  | current, stopped, (produced, output) :: rest =>
    produced = current ∧ current < bound ∧ output.requestId = requestId ∧
      InOrder requestId bound (if output.finishReason.isSome then current + 1 else current)
        stopped rest

variable {requestId : RequestId}

theorem InOrder.mono {bound bound' : Nat} (grows : bound ≤ bound') {current stopped : Nat}
    {flight : List (Nat × EngineCoreOutput Entry Experts Params)}
    (order : InOrder requestId bound current stopped flight) :
    InOrder requestId bound' current stopped flight := by
  induction flight generalizing current with
  | nil => exact order
  | cons entry rest ih =>
    exact ⟨order.1, Nat.lt_of_lt_of_le order.2.1 grows, order.2.2.1, ih order.2.2.2⟩

theorem InOrder.append {bound current stopped : Nat}
    {flight : List (Nat × EngineCoreOutput Entry Experts Params)}
    (order : InOrder requestId bound current stopped flight)
    (output : EngineCoreOutput Entry Experts Params) (below : stopped < bound)
    (mine : output.requestId = requestId) :
    InOrder requestId bound current (if output.finishReason.isSome then stopped + 1 else stopped)
      (flight ++ [(stopped, output)]) := by
  induction flight generalizing current with
  | nil =>
    cases order
    exact ⟨rfl, below, mine, rfl⟩
  | cons entry rest ih => exact ⟨order.1, order.2.1, order.2.2.1, ih order.2.2.2⟩

theorem engine_runningChunk {received current : Nat}
    (at_ : EngineAt session (some request) received current) (active : Active request.status) :
    runningChunk received request = current ∧ current < min received session.runs := by
  cases at_ with
  | unreceived absent => cases absent
  | gone absent => cases absent
  | waiting received _ held status _ _ _ _ =>
    cases held
    exact absurd status active.2
  | running received current _ held _ below bound resumable queue =>
    cases held
    have total := requests_length session
    unfold runningChunk
    rw [queue]
    by_cases only : session.chunks.length = 0
    · omega
    · simp only [only, ↓reduceIte, getD_some, length_map, length_drop, length_take]
      omega

/-- What the output processor is at when an output of its running chunk arrives. -/
theorem front_attribution {sent current : Nat} (finished : Bool)
    (at_ : FrontAt session front sent current) (below : current < min sent session.runs) :
    attribution session sent current finished front =
      ⟨current, finished, some current, session.prompts (current + 1)⟩ := by
  cases at_ with
  | unsent absent => omega
  | idle sent reqState found state prompt positive bound queue streaming => omega
  | closed absent => omega
  | running sent current reqState found state prompt _ bound queue streaming =>
    simp only [attribution, found, prompt, currentChunk, queue]
    congr 1
    simp only [Session.runs] at below ⊢
    by_cases only : session.chunks.length = 0
    · have ends : sent = session.chunks.length + 1 ∧
          current + 1 = min sent (max session.chunks.length 1) := by omega
      have closing : reqState.streamingInput = false := by
        rw [streaming, Session.runs, decide_eq_true ends.1, decide_eq_true ends.2]
        rfl
      simp only [only, ↓reduceIte, closing, Bool.false_eq_true]
      congr 1
      omega
    · simp only [only, ↓reduceIte]
      rw [held_length _ _ _ (Nat.min_le_right _ _)]
      congr 1
      omega

/-- The invariant of the session: `current` chunks have completed for the output
processor and `stopped` chunks for the scheduler. -/
structure Agreed (session : Session State Entry Prob Logprob Digest)
    (system : System State Prob Logprob Experts Params Entry Digest) (current stopped : Nat) :
    Prop where
  alone : system.front.parent = none
  front : FrontAt session system.front system.sent current
  engine : EngineAt session system.engine system.received stopped
  toEngine : system.toEngine = (session.requests.take system.sent).drop system.received
  order : system.received ≤ system.sent
  toFront : InOrder session.requestId (min system.received session.runs) current stopped system.toFront
  attributed : ∀ entry ∈ system.log, entry.current = some entry.produced ∧
    entry.promptTokenIds = session.prompts (entry.produced + 1)
  completed : (system.log.filter Attribution.finished).map Attribution.produced = List.range current
  flags : (system.got.filter RequestOutput.finished).length +
      (if system.front.queue.pendingFinished then 1 else 0) =
    if 0 < system.sent ∧ (system.front.requestStates.get? session.requestId).isNone = true then 1
    else 0

/-- Until the last request is sent and its output arrives the session is not closed. -/
theorem FrontAt.open_ {session : Session State Entry Prob Logprob Digest}
    {front : OutputProcessor State Prob Logprob Experts Params} {sent current : Nat}
    (at_ : FrontAt session front sent current)
    (more : sent ≤ session.chunks.length ∨ current < min sent session.runs) :
    ¬ (0 < sent ∧ (front.requestStates.get? session.requestId).isNone = true) := by
  rintro ⟨positive, absent⟩
  cases at_ with
  | unsent _ => omega
  | running _ _ _ found => simp [found] at absent
  | idle _ _ found => simp [found] at absent
  | closed _ => omega

/-- Before that no finished output is got or waits. -/
theorem Agreed.unfinished {session : Session State Entry Prob Logprob Digest}
    {system : System State Prob Logprob Experts Params Entry Digest} {current stopped : Nat}
    (agreed : Agreed session system current stopped)
    (more : system.sent ≤ session.chunks.length ∨ current < min system.sent session.runs) :
    (system.got.filter RequestOutput.finished).length = 0 ∧
      system.front.queue.pendingFinished = false := by
  have flags := agreed.flags
  rw [if_neg (agreed.front.open_ more)] at flags
  cases waits : system.front.queue.pendingFinished with
  | false =>
    rw [waits] at flags
    exact ⟨by simpa using flags, rfl⟩
  | true =>
    rw [waits] at flags
    simp at flags

theorem step_agreed {system next : System State Prob Logprob Experts Params Entry Digest}
    {current stopped : Nat} (agreed : Agreed session system current stopped)
    (step : Step session system next) :
    ∃ current' stopped', Agreed session next current' stopped' := by
  have total := requests_length session
  cases step with
  | send chunk front next added =>
    obtain ⟨at_, parent, flags⟩ := front_send session system.front agreed.front next added
    have upTo := request_le session system.sent chunk next
    refine ⟨current, stopped, parent.trans agreed.alone, at_, agreed.engine, ?_,
      Nat.le_succ_of_le agreed.order, agreed.toFront, agreed.attributed, agreed.completed, ?_⟩
    · change system.toEngine ++ [chunk] = (session.requests.take (system.sent + 1)).drop system.received
      have order := agreed.order
      rw [agreed.toEngine, take_add_one, next, toList_some,
        drop_append_of_le_length (by rw [length_take]; omega)]
    · obtain ⟨noneGot, noneWaits⟩ := agreed.unfinished (Or.inl upTo)
      rw [noneWaits] at flags
      simp only [flags, noneGot, Bool.false_or, Nat.zero_add, Nat.succ_pos, true_and]
  | receive chunk rest engine head added =>
    have found : session.requests[system.received]? = some chunk := by
      have first := congrArg head? (agreed.toEngine.symm.trans head)
      rw [head?_drop, getElem?_take] at first
      split at first
      · exact first
      · cases first
    have upTo : system.received < system.sent := by
      have lengths := congrArg length (agreed.toEngine.symm.trans head)
      simp only [length_drop, length_take, length_cons] at lengths
      omega
    have at_ := engine_receive session agreed.engine found added
    refine ⟨current, stopped, agreed.alone, agreed.front, at_, ?_, upTo, ?_, agreed.attributed,
      agreed.completed, agreed.flags⟩
    · have tail := congrArg tail (agreed.toEngine.symm.trans head)
      rw [tail_drop] at tail
      exact tail.symm
    · exact agreed.toFront.mono (by simp only; omega)
  | work before after held active still queue resumable =>
    have at_ := agreed.engine
    rw [held] at at_
    refine ⟨current, stopped, agreed.alone, agreed.front, ?_, agreed.toEngine, agreed.order,
      agreed.toFront, agreed.attributed, agreed.completed, agreed.flags⟩
    generalize system.received = received at at_
    cases at_ with
    | unreceived absent => cases absent
    | gone absent => cases absent
    | waiting received _ held status =>
      cases held
      exact absurd status active.2
    | running received current _ held _ below bound wasResumable wasQueue =>
      cases held
      exact .running _ _ after rfl still below bound (resumable.trans wasResumable)
        (queue.trans wasQueue)
  | produce request output held active mine unfinished =>
    have at_ := agreed.engine
    rw [held] at at_
    obtain ⟨running, below⟩ := engine_runningChunk session request at_ active
    refine ⟨current, stopped, agreed.alone, agreed.front, agreed.engine, agreed.toEngine,
      agreed.order, ?_, agreed.attributed, agreed.completed, agreed.flags⟩
    have appended := agreed.toFront.append output below mine
    rw [unfinished] at appended
    simp only [running]
    exact appended
  | stop request chunkStopped handled finished output held active queue resumable mine reason handling =>
    have at_ := agreed.engine
    rw [held] at at_
    obtain ⟨running, below⟩ := engine_runningChunk session request at_ active
    obtain ⟨-, after⟩ := engine_stop session request at_ active queue resumable handling
    refine ⟨current, stopped + 1, agreed.alone, agreed.front, after, agreed.toEngine,
      agreed.order, ?_, agreed.attributed, agreed.completed, agreed.flags⟩
    have appended := agreed.toFront.append output below mine
    rw [if_pos reason] at appended
    simp only [running]
    exact appended
  | deliver produced output rest after head processed =>
    have flight := agreed.toFront
    rw [head] at flight
    obtain ⟨isCurrent, received, mine, later⟩ := flight
    have order := agreed.order
    have below : current < min system.sent session.runs := by omega
    obtain ⟨at_, alone, flags⟩ := front_deliver session system.front agreed.front below agreed.alone mine processed
    have entry := front_attribution session system.front
      output.finishReason.isSome agreed.front below
    rw [← isCurrent] at entry
    refine ⟨_, stopped, alone, at_, agreed.engine, agreed.toEngine, agreed.order, later, ?_, ?_, ?_⟩
    · simp only [entry, mem_append, mem_singleton]
      rintro old (known | rfl)
      · exact agreed.attributed old known
      · simp [isCurrent]
    · simp only [entry, filter_append, map_append, agreed.completed]
      cases finished : output.finishReason.isSome with
      | false => simp
      | true => simp [range_succ, isCurrent]
    · obtain ⟨noneGot, noneWaits⟩ := agreed.unfinished (Or.inr below)
      have positive : 0 < system.sent := by omega
      rw [noneWaits] at flags
      simp only [flags, noneGot, Bool.false_or, Nat.zero_add, positive, true_and]
  | get output held =>
    refine ⟨current, stopped, agreed.alone, ?_, agreed.engine, agreed.toEngine, agreed.order,
      agreed.toFront, agreed.attributed, agreed.completed, ?_⟩
    · have at_ := agreed.front
      generalize system.sent = sent at at_
      cases at_ with
      | unsent absent => exact .unsent absent
      | running _ _ reqState found state prompt below bound queue streaming =>
        exact .running _ _ reqState found state prompt below bound queue streaming
      | idle _ reqState found state prompt positive bound queue streaming =>
        exact .idle _ reqState found state prompt positive bound queue streaming
      | closed absent => exact .closed absent
    · have before := agreed.flags
      simp only [RequestOutputCollector.pendingFinished, held, any_some] at before
      simp only [RequestOutputCollector.pendingFinished, RequestOutputCollector.take,
        filter_append, length_append, any_none, Bool.false_eq_true, ↓reduceIte,
        Nat.add_zero]
      rw [← before]
      cases finished : output.finished <;> simp [finished]

theorem init_agreed (outputKind : RequestOutputKind) :
    Agreed session (System.init outputKind :
      System State Prob Logprob Experts Params Entry Digest) 0 0 := by
  constructor
  · rfl
  · exact .unsent rfl
  · exact .unreceived rfl
  · rfl
  · exact Nat.le_refl 0
  · rfl
  · intro entry inLog
    cases inLog
  · rfl
  · rfl

theorem reachable_agreed (system : System State Prob Logprob Experts Params Entry Digest)
    (reachable : Reachable session system) :
    ∃ current stopped, Agreed session system current stopped := by
  obtain ⟨outputKind, run⟩ := reachable
  induction run with
  | refl => exact ⟨0, 0, init_agreed session outputKind⟩
  | tail _ step ih =>
    obtain ⟨current, stopped, agreed⟩ := ih
    exact step_agreed session agreed step

theorem delivered_flags (system : System State Prob Logprob Experts Params Entry Digest) :
    (system.delivered.filter RequestOutput.finished).length =
      (system.got.filter RequestOutput.finished).length +
        if system.front.queue.pendingFinished then 1 else 0 := by
  unfold System.delivered RequestOutputCollector.pendingFinished
  cases system.front.queue.output with
  | none => simp
  | some output => cases finished : output.finished <;> simp [filter_append, finished]

theorem closed_runs {session : Session State Entry Prob Logprob Digest}
    {system : System State Prob Logprob Experts Params Entry Digest} {current stopped : Nat}
    (agreed : Agreed session system current stopped) (closed : system.Closed session) :
    system.sent = session.chunks.length + 1 ∧ current = session.runs := by
  have at_ := agreed.front
  obtain ⟨positive, absent⟩ := closed
  generalize system.sent = sent at at_ positive
  cases at_ with
  | unsent _ => omega
  | running _ _ _ found => rw [found] at absent; cases absent
  | idle _ _ found => rw [found] at absent; cases absent
  | closed _ => exact ⟨rfl, rfl⟩

/-- Once every chunk has completed nothing is in flight to the output processor. -/
theorem InOrder.landed {received runs stopped : Nat}
    {flight : List (Nat × EngineCoreOutput Entry Experts Params)}
    (order : InOrder requestId (min received runs) runs stopped flight) :
    flight = [] ∧ stopped = runs := by
  cases flight with
  | nil => exact ⟨rfl, order.symm⟩
  | cons entry rest =>
    have below : runs < min received runs := order.2.1
    omega

theorem stopped_inactive {session : Session State Entry Prob Logprob Digest}
    {system : System State Prob Logprob Experts Params Entry Digest} {current : Nat}
    (agreed : Agreed session system current session.runs) (request : Requests.Request Digest)
    (held : system.engine = some request) : ¬ Active request.status := by
  intro active
  have at_ := agreed.engine
  rw [held] at at_
  have below := (engine_runningChunk session request at_ active).2
  omega

theorem FrontAt.ended {session : Session State Entry Prob Logprob Digest}
    {front : OutputProcessor State Prob Logprob Experts Params} {sent current : Nat}
    (at_ : FrontAt session front sent current) (allSent : sent = session.chunks.length + 1)
    (complete : current = session.runs) :
    front.requestStates.get? session.requestId = none := by
  cases at_ with
  | unsent absent => exact absent
  | running _ _ _ _ _ _ below => omega
  | idle _ _ _ _ _ _ bound => omega
  | closed absent => exact absent

theorem settled_released {session : Session State Entry Prob Logprob Digest}
    {system : System State Prob Logprob Experts Params Entry Digest} {current stopped : Nat}
    (agreed : Agreed session system current stopped) (settled : system.Settled session) :
    system.Closed session ∧ system.engine = none := by
  obtain ⟨allSent, noneToEngine, noneToFront, idle⟩ := settled
  have total := requests_length session
  have allReceived : system.received = session.chunks.length + 1 := by
    have lengths := congrArg length (agreed.toEngine.symm.trans noneToEngine)
    have order := agreed.order
    simp only [length_drop, length_take, length_nil] at lengths
    omega
  have landed := agreed.toFront
  rw [noneToFront] at landed
  -- the scheduler has let go: it neither runs nor waits after the final request
  have gone : system.engine = none ∧ stopped = session.runs := by
    have at_ := agreed.engine
    generalize system.received = received at at_ allReceived
    cases at_ with
    | unreceived _ => omega
    | running _ _ request held active => exact absurd active (idle request held)
    | waiting _ _ _ _ _ _ _ bound => omega
    | gone absent => exact ⟨absent, rfl⟩
  have absent := agreed.front.ended (allSent.trans total) (Eq.trans landed gone.2)
  exact ⟨⟨by omega, absent⟩, gone.1⟩

/-- Every token is the letter a. -/
def letters : Tokenizer Unit Unit Unit Unit :=
  ⟨fun _ _ _ => (['a'], ()), fun _ _ => (), fun _ _ => ()⟩

def letterChunk (goesOn : Bool) (token : Nat) : Chunk Unit Unit where
  request :=
    { requestId := ['s'], resumable := goesOn, promptTokenIds := some [token], outputKind := .delta
      stop := ⟨[], StopStrings.none_empty⟩, minTokens := 0, includeStopStrInOutput := false
      decoder := some (), primed := [], logprobs := false }
  prompt := none
  engine := Requests.Request.create
    { requestId := 0, promptTokenIds := some [token], samplingParams := some ⟨2, 0, none, [], none, none⟩
      poolingParams := none, clientIndex := 0, arrivalTime := 0, promptEmbeds := none
      mmFeatures := [], loraRequest := none, cacheSalt := none, priority := 0
      structuredOutput := false, blockHasher := none, resumable := goesOn } 2 none .waiting

theorem letterChunk_valid (goesOn : Bool) (token : Nat) :
    (letterChunk goesOn token).Valid ['s'] goesOn :=
  ⟨rfl, rfl, by simp [letterChunk], rfl, rfl, waiting_active, rfl⟩

/-- One chunk and the final request. -/
def letterSession : Session Unit Unit Unit Unit Unit where
  tokenizer := letters
  zero := ()
  streamInterval := 1
  requestId := ['s']
  chunks := [letterChunk true 1]
  final := letterChunk false 2
  chunksValid := by
    intro chunk inChunks
    rw [List.mem_singleton.mp inChunks]
    exact letterChunk_valid true 1
  finalValid := letterChunk_valid false 2

def letterOutput : EngineCoreOutput Unit Unit Unit where
  requestId := ['s']
  newTokenIds := [5]
  newLogprobs := none
  finishReason := some .length
  stopReason := none
  kvTransferParams := none
  routedExperts := none

/-- The final request is sent while the output of the chunk is in flight: the chunk
stops before the scheduler has the request. -/
theorem crossing_reachable : ∃ system : System Unit Unit Unit Unit Unit Unit Unit,
    Reachable letterSession system ∧ system.Settled letterSession ∧
      (system.delivered.map RequestOutput.finished) = [true] := by
  have started : Relation.ReflTransGen (Step letterSession)
      (System.init .delta : System Unit Unit Unit Unit Unit Unit Unit) _ :=
    .tail (.tail .refl (.send _ _ rfl rfl)) (.receive _ _ _ rfl rfl)
  have stopped := started.tail (.stop _ _ _ false letterOutput rfl waiting_active rfl rfl rfl rfl rfl)
  have settled := ((stopped.tail (.send _ _ rfl rfl)).tail (.deliver _ _ _ _ rfl rfl)).tail
    (.receive _ _ _ rfl rfl)
  refine ⟨_, ⟨.delta, settled⟩, ⟨rfl, rfl, rfl, ?_⟩, rfl⟩
  rintro _ ⟨⟩

end VllmDcu.StreamingSessions

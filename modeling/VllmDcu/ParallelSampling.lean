import VllmDcu.OutputProcessing

/-! Parallel sampling: `add_request` adds the children of one parent one by one and
gives way to the output handler between them; the consumer gets the collector
when all of them are added. -/
namespace VllmDcu.ParallelSampling
open Dict RequestOutputs Detokenizer OutputProcessing List Option

/-- The call of `add_request`: not a streaming session, and `n` children. -/
structure FanOutRequest (State Entry Prob Logprob : Type) where
  tokenizer : Tokenizer State Entry Prob Logprob
  zero : Prob
  streamInterval : Nat
  request : EngineCoreRequest State
  notResumable : request.resumable = false
  prompt : Option (List Char)
  n : Nat

/-- The front end during the call: `added` children are added, `got` is what the
consumer has taken. -/
structure FanOut (State Prob Logprob Experts Params : Type) where
  processor : OutputProcessor State Prob Logprob Experts Params
  added : Nat
  got : List (RequestOutput Prob Logprob Experts Params)

inductive Step (Entry Experts Params : Type) where
  | addChild
  | engineOutput (output : EngineCoreOutput Entry Experts Params)
  | get

variable {State Entry Prob Logprob Experts Params : Type}

def FanOutRequest.childId (config : FanOutRequest State Entry Prob Logprob) (index : Nat) : RequestId :=
  childReqId config.request.requestId index

def FanOut.init (config : FanOutRequest State Entry Prob Logprob) :
    FanOut State Prob Logprob Experts Params where
  processor :=
    { requestStates := Dict.empty
      parent := some (ParentRequest.init config.request.requestId config.n config.request.outputKind)
      queue := RequestOutputCollector.init config.request.outputKind }
  added := 0
  got := []

/-- One turn of the loop over the children. -/
def FanOut.addChild (config : FanOutRequest State Entry Prob Logprob)
    (self : FanOut State Prob Logprob Experts Params) :
    Option (FanOut State Prob Logprob Experts Params) := do
  let parent ← self.processor.parent
  if self.added < config.n then
    let child := parent.getChildInfo self.added
    let processor ← OutputProcessor.addRequest config.zero config.streamInterval
      { self.processor with parent := some child.1 }
      { config.request with requestId := child.2 } config.prompt self.added
    some { self with processor := processor, added := self.added + 1 }
  else none

/-- The consumer has the collector only when `add_request` has returned. -/
def FanOut.get (config : FanOutRequest State Entry Prob Logprob)
    (self : FanOut State Prob Logprob Experts Params) :
    Option (FanOut State Prob Logprob Experts Params) :=
  if self.added = config.n then
    self.processor.queue.output.map fun output =>
      { self with
        processor := { self.processor with queue := self.processor.queue.take }
        got := self.got ++ [output] }
  else none

def FanOut.step (config : FanOutRequest State Entry Prob Logprob)
    (self : FanOut State Prob Logprob Experts Params) :
    Step Entry Experts Params → Option (FanOut State Prob Logprob Experts Params)
  | .addChild => self.addChild config
  | .engineOutput output =>
    (self.processor.processOutput config.tokenizer output).map fun done =>
      { self with processor := done.1 }
  | .get => self.get config

def FanOut.run (config : FanOutRequest State Entry Prob Logprob) :
    FanOut State Prob Logprob Experts Params → List (Step Entry Experts Params) →
    Option (FanOut State Prob Logprob Experts Params)
  | self, [] => some self
  | self, step :: rest => (self.step config step).bind fun next => next.run config rest

/-- A child that is added and not finished. -/
def FanOut.Outstanding (config : FanOutRequest State Entry Prob Logprob)
    (self : FanOut State Prob Logprob Experts Params) (index : Nat) : Prop :=
  (self.processor.requestStates.get? (config.childId index)).isSome = true

instance (config : FanOutRequest State Entry Prob Logprob)
    (self : FanOut State Prob Logprob Experts Params) (index : Nat) :
    Decidable (self.Outstanding config index) :=
  inferInstanceAs (Decidable (_ = true))

def FanOut.Finished (config : FanOutRequest State Entry Prob Logprob)
    (self : FanOut State Prob Logprob Experts Params) (index : Nat) : Prop :=
  index < self.added ∧ ¬ self.Outstanding config index

instance (config : FanOutRequest State Entry Prob Logprob)
    (self : FanOut State Prob Logprob Experts Params) (index : Nat) :
    Decidable (self.Finished config index) :=
  inferInstanceAs (Decidable (_ ∧ _))

def FanOut.AllFinished (config : FanOutRequest State Entry Prob Logprob)
    (self : FanOut State Prob Logprob Experts Params) : Prop :=
  self.added = config.n ∧ ∀ index < config.n, ¬ self.Outstanding config index

instance (config : FanOutRequest State Entry Prob Logprob)
    (self : FanOut State Prob Logprob Experts Params) : Decidable (self.AllFinished config) :=
  inferInstanceAs (Decidable (_ ∧ _))

/-- What the consumer has taken and what waits for it. -/
def FanOut.delivered (self : FanOut State Prob Logprob Experts Params) :
    List (RequestOutput Prob Logprob Experts Params) :=
  self.got ++ self.processor.queue.output.toList

/-- How often the final output of a child is among what was delivered. -/
def FanOut.finalsOf (self : FanOut State Prob Logprob Experts Params) (index : Nat) : Nat :=
  (self.delivered.map fun output => finals index output.outputs).sum

/-- The `n` real completions in index order. -/
def CompleteList (n : Nat) (outputs : List (Option (CompletionOutput Prob Logprob Experts))) : Prop :=
  outputs.length = n ∧ ∀ index < n, ∃ completion : CompletionOutput Prob Logprob Experts,
    outputs[index]? = some (some completion) ∧ completion.index = index ∧
      completion.finished = true

/-- What the consumer of the parent relies on, in every state. -/
structure CompletesOnce (config : FanOutRequest State Entry Prob Logprob)
    (front : FanOut State Prob Logprob Experts Params) : Prop where
  notEarly : ∀ output ∈ front.got, output.finished = true → front.AllFinished config
  once : (front.delivered.filter RequestOutput.finished).length =
    if front.AllFinished config then 1 else 0
  finalOnly : config.request.outputKind = .finalOnly →
    (∀ output ∈ front.delivered, CompleteList config.n output.outputs) ∧
      front.delivered.length = if front.AllFinished config then 1 else 0
  streamed : config.request.outputKind ≠ .finalOnly →
    (∀ output ∈ front.delivered, none ∉ output.outputs) ∧ ∀ index < config.n,
      front.finalsOf index = if front.Finished config index then 1 else 0

/-- An output that finishes a child comes when all children are added or another
added child is still outstanding. -/
def Step.KeepsOpen (config : FanOutRequest State Entry Prob Logprob)
    (self : FanOut State Prob Logprob Experts Params) : Step Entry Experts Params → Prop
  | .engineOutput output => ∀ reqState digested,
      self.processor.requestStates.get? output.requestId = some reqState →
      reqState.digest config.tokenizer output = some digested → digested.2.1.isSome = true →
      self.added = config.n ∨ ∃ other ≠ output.requestId,
        (self.processor.requestStates.get? other).isSome = true
  | _ => True

def KeepsOpen (config : FanOutRequest State Entry Prob Logprob) :
    FanOut State Prob Logprob Experts Params → List (Step Entry Experts Params) → Prop
  | _, [] => True
  | self, step :: rest => step.KeepsOpen config self ∧
      ∀ next, self.step config step = some next → KeepsOpen config next rest

theorem childReqId_injective {parentId : RequestId} {left right : Nat}
    (same : childReqId parentId left = childReqId parentId right) : left = right := by
  have digits := append_cancel_right same
  rw [← Nat.ofDigitChars_ten_toDigits (n := left), digits, Nat.ofDigitChars_ten_toDigits]

/-- The request states are those of the outstanding children, which are the ones
the parent still lists. -/
structure Family (config : FanOutRequest State Entry Prob Logprob)
    (front : FanOut State Prob Logprob Experts Params)
    (parent : ParentRequest Prob Logprob Experts) : Prop where
  held : front.processor.parent = some parent
  parentId : parent.requestId = config.request.requestId
  outputKind : parent.outputKind = config.request.outputKind
  added : front.added ≤ config.n
  states : ∀ id reqState, front.processor.requestStates.get? id = some reqState →
    ∃ index < front.added, id = config.childId index ∧ reqState.requestId = id ∧
      reqState.requestIndex = index ∧ reqState.outputKind = config.request.outputKind ∧
      reqState.streamingInput = false
  children : ∀ id, id ∈ parent.childRequests ↔
    (front.processor.requestStates.get? id).isSome = true
  unique : parent.childRequests.Nodup

variable (config : FanOutRequest State Entry Prob Logprob)

theorem init_family :
    Family config (FanOut.init config : FanOut State Prob Logprob Experts Params)
      (ParentRequest.init config.request.requestId config.n config.request.outputKind) where
  held := rfl
  parentId := rfl
  outputKind := rfl
  added := Nat.zero_le _
  states := by
    intro id reqState found
    simp [FanOut.init] at found
  children := by
    simp [FanOut.init, ParentRequest.init]
  unique := nodup_nil

/-- What adding a child changes. -/
structure ChildAdded (config : FanOutRequest State Entry Prob Logprob)
    (front next : FanOut State Prob Logprob Experts Params)
    (parent parent' : ParentRequest Prob Logprob Experts) : Prop where
  family : Family config next parent'
  room : front.added < config.n
  added : next.added = front.added + 1
  got : next.got = front.got
  queue : next.processor.queue = front.processor.queue
  aggregator : parent'.outputAggregator = parent.outputAggregator
  fresh : ¬ front.Outstanding config front.added
  outstanding : ∀ index, next.Outstanding config index ↔
    index = front.added ∨ front.Outstanding config index

variable (self next : FanOut State Prob Logprob Experts Params)
variable (parent : ParentRequest Prob Logprob Experts)

theorem addChild_family (family : Family config self parent)
    (done : self.addChild config = some next) :
    ∃ parent', ChildAdded config self next parent parent' := by
  simp only [FanOut.addChild, family.held, bind_eq_bind, bind_some] at done
  by_cases room : self.added < config.n
  · have fresh : self.processor.requestStates.get? (config.childId self.added) = none := by
      by_contra present
      obtain ⟨reqState, found⟩ := ne_none_iff_exists'.mp present
      obtain ⟨index, inside, same, -⟩ := family.states _ reqState found
      have := childReqId_injective same
      omega
    have freshId : childReqId parent.requestId self.added = config.childId self.added := by
      rw [family.parentId]
      rfl
    have notListed : config.childId self.added ∉ parent.childRequests := by
      rw [family.children, fresh]
      simp
    simp only [if_pos room, ParentRequest.getChildInfo, freshId, if_neg notListed,
      OutputProcessor.addRequest, fresh, bind_some, some.injEq] at done
    subst done
    have outstanding : ∀ id, ((self.processor.requestStates.set (config.childId self.added)
        (RequestState.fromNewRequest config.zero
          { config.request with requestId := config.childId self.added } config.prompt self.added
          config.streamInterval : RequestState State Prob Logprob)).get? id).isSome = true ↔
        id = config.childId self.added ∨ (self.processor.requestStates.get? id).isSome = true := by
      intro id
      by_cases same : id = config.childId self.added <;> simp [same]
    refine ⟨{ parent with childRequests := parent.childRequests ++ [config.childId self.added] },
      ?_, room, rfl, rfl, rfl, rfl, ?_, ?_⟩
    · constructor
      · rfl
      · exact family.parentId
      · exact family.outputKind
      · exact room
      · intro id reqState found
        simp only [get?_set] at found
        split at found
        · rename_i same
          cases found
          refine ⟨self.added, Nat.lt_succ_self _, same, same.symm, rfl, rfl, ?_⟩
          exact config.notResumable
        · obtain ⟨index, inside, rest⟩ := family.states id reqState found
          exact ⟨index, Nat.lt_succ_of_lt inside, rest⟩
      · intro id
        rw [outstanding id, mem_append, mem_singleton, family.children id, or_comm]
      · exact nodup_append.mpr ⟨family.unique, by simp, by
          intro left inLeft right inRight same
          rw [mem_singleton] at inRight
          exact notListed (inRight ▸ same ▸ inLeft)⟩
    · unfold FanOut.Outstanding
      rw [fresh]
      simp
    · intro index
      unfold FanOut.Outstanding
      rw [outstanding]
      apply or_congr _ Iff.rfl
      exact ⟨childReqId_injective, fun same => by rw [same]⟩
  · simp [if_neg room] at done

/-- What an output of an outstanding child changes. `finished` tells whether the
output finishes the child. -/
structure ChildOutput (config : FanOutRequest State Entry Prob Logprob)
    (front next : FanOut State Prob Logprob Experts Params)
    (parent parent' : ParentRequest Prob Logprob Experts) (index : Nat) (finished : Bool) : Prop where
  family : Family config next parent'
  added : next.added = front.added
  got : next.got = front.got
  inside : index < front.added
  was : front.Outstanding config index
  outstanding : ∀ id, (next.processor.requestStates.get? id).isSome = true ↔
    (front.processor.requestStates.get? id).isSome = true ∧
      (id = config.childId index → finished = false)
  streaming : config.request.outputKind ≠ .finalOnly →
    parent'.outputAggregator = parent.outputAggregator ∧
    ∃ queue, SamePending front.processor.queue queue ∧
      ((finished = false ∧ next.processor.queue = queue) ∨
        ∃ completion : CompletionOutput Prob Logprob Experts, ∃ params,
          completion.index = index ∧ completion.finished = finished ∧
          queue.put ⟨[some completion], parent'.childRequests.isEmpty, params⟩ =
            some next.processor.queue)
  finalOnly : config.request.outputKind = .finalOnly →
    index < parent.outputAggregator.length → front.processor.queue.output = none →
    if finished then ∃ completion : CompletionOutput Prob Logprob Experts,
        completion.index = index ∧ completion.finished = true ∧
        parent'.outputAggregator = parent.outputAggregator.set index (some completion) ∧
        if parent'.childRequests = [] then
          (next.processor.queue.output.map fun output => (output.outputs, output.finished)) =
            some (parent'.outputAggregator, true)
        else next.processor.queue.output = none
      else parent'.outputAggregator = parent.outputAggregator ∧
        next.processor.queue.output = none

variable (parent' : ParentRequest Prob Logprob Experts)

/-- The request states after an output of a child: its state is replaced, or erased
when the output finishes it, and the parent drops it in the same way. -/
theorem family_turn (queue : RequestOutputCollector Prob Logprob Experts Params)
    (before reqState : RequestState State Prob Logprob) (id : RequestId) (finished : Bool)
    (processor : OutputProcessor State Prob Logprob Experts Params)
    (family : Family config self parent)
    (known : self.processor.requestStates.get? id = some before)
    (same : SameRequest before reqState) (parentId : parent'.requestId = parent.requestId)
    (outputKind : parent'.outputKind = parent.outputKind)
    (childRequests : parent'.childRequests =
      if finished then parent.childRequests.erase id else parent.childRequests)
    (left : processor = if finished then OutputProcessor.freeCompleted
        ⟨self.processor.requestStates.set reqState.requestId reqState, some parent', queue⟩ reqState
      else ⟨self.processor.requestStates.set reqState.requestId reqState, some parent', queue⟩) :
    Family config { self with processor := processor } parent' ∧ processor.queue = queue ∧
      ∀ other, (processor.requestStates.get? other).isSome = true ↔
        (self.processor.requestStates.get? other).isSome = true ∧ (other = id → finished = false) := by
  obtain ⟨index, inside, idIndex, requestId, requestIndex, kind, streamingInput⟩ :=
    family.states id before known
  have afterId : reqState.requestId = id := same.requestId.trans requestId
  have noSession : reqState.streamingInput = false := same.streamingInput.trans streamingInput
  have states : processor.requestStates =
      if finished then (self.processor.requestStates.set id reqState).erase id
      else self.processor.requestStates.set id reqState := by
    rw [left]
    cases finished <;> simp [OutputProcessor.freeCompleted, noSession, afterId]
  have lookup : ∀ other, processor.requestStates.get? other =
      if other = id then (if finished then none else some reqState)
      else self.processor.requestStates.get? other := by
    intro other
    rw [states]
    cases finished <;> by_cases here : other = id <;> simp [here]
  have rest : processor.parent = some parent' ∧ processor.queue = queue := by
    rw [left]
    cases finished <;> simp [OutputProcessor.freeCompleted, noSession]
  have outstanding : ∀ other, (processor.requestStates.get? other).isSome = true ↔
      (self.processor.requestStates.get? other).isSome = true ∧ (other = id → finished = false) := by
    intro other
    rw [lookup other]
    by_cases here : other = id
    · cases finished <;> simp [here, known]
    · simp [here]
  refine ⟨?_, rest.2, outstanding⟩
  constructor
  · exact rest.1
  · exact parentId.trans family.parentId
  · exact outputKind.trans family.outputKind
  · exact family.added
  · intro other otherState found
    simp only [lookup other] at found
    split at found
    · rename_i here
      cases finished with
      | true => simp at found
      | false =>
        simp only [Bool.false_eq_true, ↓reduceIte, some.injEq] at found
        subst found here
        exact ⟨index, inside, idIndex, afterId, same.requestIndex.trans requestIndex,
          same.outputKind.trans kind, noSession⟩
    · exact family.states other otherState found
  · intro other
    rw [outstanding other, childRequests]
    cases finished with
    | false => simpa using family.children other
    | true =>
      simp only [↓reduceIte, Bool.true_eq_false, imp_false]
      rw [family.unique.mem_erase_iff, family.children other, and_comm]
  · rw [childRequests]
    cases finished with
    | false => exact family.unique
    | true => exact family.unique.erase id

theorem engineOutput_child (family : Family config self parent)
    (output : EngineCoreOutput Entry Experts Params)
    (after : OutputProcessor State Prob Logprob Experts Params × Bool)
    (done : self.processor.processOutput config.tokenizer output = some after) :
    after.1 = self.processor ∨ ∃ index parent' reqState digested finished,
      self.processor.requestStates.get? output.requestId = some reqState ∧
      reqState.digest config.tokenizer output = some digested ∧ digested.2.1.isSome = finished ∧
      output.requestId = config.childId index ∧
      ChildOutput config self { self with processor := after.1 } parent parent' index finished := by
  cases processOutput_cases config.tokenizer self.processor output after done with
  | inl unknown =>
    left
    rw [unknown.2]
  | inr known =>
    right
    obtain ⟨reqState, digested, made, queue, known, digest, make, delivered, left⟩ := known
    obtain ⟨index, inside, idIndex, requestId, requestIndex, kind, streamingInput⟩ :=
      family.states _ reqState known
    have digestSame := digest_same config.tokenizer reqState digest
    obtain ⟨makeSame, cases_⟩ := makeRequestOutput_cases _ make
    have same := (digestSame.trans makeSame).trans (extendShared_same made.1 queue)
    have noSession : made.1.streamingInput = false :=
      (digestSame.trans makeSame).streamingInput.trans streamingInput
    have idSame : digested.1.requestId = output.requestId := digestSame.requestId.trans requestId
    have indexSame : digested.1.requestIndex = index := digestSame.requestIndex.trans requestIndex
    have kindSame : digested.1.outputKind = config.request.outputKind :=
      digestSame.outputKind.trans kind
    have was : self.Outstanding config index := by
      unfold FanOut.Outstanding
      rw [← idIndex, known]
      rfl
    have listed : output.requestId ∈ parent.childRequests := by
      rw [family.children, known]
      rfl
    have refreshed := refreshLogprobs_same digested.1.requestIndex
      digested.1.logprobsProcessor.logprobs self.processor.queue
    rcases cases_ with ⟨silent, madeIs⟩ | ⟨sends, completion, -, completionIndex, reason, parentless | held⟩
    · -- nothing is sent: the child goes on
      have unfinished : digested.2.1.isSome = false := by
        cases finished : digested.2.1.isSome with
        | false => rfl
        | true => rw [finished, sends_finished] at silent; cases silent
      rw [unfinished] at left
      rw [madeIs] at delivered left same
      simp only [family.held, RequestState.deliver, some.injEq] at delivered left
      obtain ⟨nextFamily, nextQueue, outstanding⟩ := family_turn config self parent parent queue
        reqState _ output.requestId false after.1 family known same rfl rfl rfl left
      refine ⟨index, parent, reqState, digested, false, known, digest, unfinished, idIndex,
        nextFamily, rfl, rfl, inside, was, ?_, ?_, ?_⟩
      · rw [← idIndex]
        exact outstanding
      · intro streaming
        rw [refreshAggregated_streaming parent _ (by rw [family.outputKind]; exact streaming)]
          at delivered
        refine ⟨rfl, _, refreshed, Or.inl ⟨rfl, ?_⟩⟩
        rw [delivered]
        exact nextQueue
      · intro finalOnly _ empty
        refine ⟨rfl, ?_⟩
        rw [nextQueue, ← delivered]
        exact refreshAggregated_empty _ _ (refreshed.empty.mpr empty)
    · rw [family.held] at parentless
      exact absurd parentless.1 (by simp)
    · obtain ⟨heldParent, got, isHeld, outputs, madeIs⟩ := held
      rw [family.held, some.injEq] at isHeld
      subst isHeld
      rw [idSame] at outputs
      have finishedSame : completion.finished = digested.2.1.isSome := by
        unfold CompletionOutput.finished
        rw [reason]
      by_cases finalOnly : config.request.outputKind = .finalOnly
      · -- FINAL_ONLY: the completion goes into the parent's list
        have finished : digested.2.1.isSome = true :=
          sends_finalOnly digested.1 (kindSame.trans finalOnly) _ sends
        rw [finished] at left finishedSame
        have parentKind : parent.outputKind = .finalOnly := family.outputKind.trans finalOnly
        have room : completion.index < parent.outputAggregator.length := by
          by_contra outside
          simp [ParentRequest.getOutputs, parentKind, outside] at outputs
        rw [getOutputs_finalOnly parent _ completion parentKind finishedSame room,
          some.injEq] at outputs
        subst outputs
        rw [madeIs] at left delivered
        obtain ⟨nextFamily, nextQueue, outstanding⟩ := family_turn config self parent
          { parent with
            childRequests := parent.childRequests.erase output.requestId
            outputAggregator := parent.outputAggregator.set completion.index (some completion) }
          queue reqState _ output.requestId true after.1 family known same rfl rfl rfl left
        refine ⟨index, _, reqState, digested, true, known, digest, finished, idIndex, nextFamily,
          rfl, rfl, inside, was, ?_, ?_, ?_⟩
        · rw [← idIndex]
          exact outstanding
        · intro streaming
          exact absurd finalOnly streaming
        · intro _ inAggregator empty
          refine ⟨completion, completionIndex.trans indexSame, finishedSame, ?_, ?_⟩
          · rw [completionIndex, indexSame]
          · rw [nextQueue]
            have waiting := refreshAggregated_empty (some { parent with
              childRequests := parent.childRequests.erase output.requestId
              outputAggregator := parent.outputAggregator.set completion.index (some completion) })
              _ (refreshed.empty.mpr empty)
            by_cases last : parent.childRequests.erase output.requestId = []
            · have nonempty : parent.outputAggregator.set completion.index (some completion) ≠ [] := by
                intro nothing
                have := congrArg length nothing
                simp only [length_set, length_nil] at this
                omega
              simp only [last, isEmpty_nil, ↓reduceIte, if_neg nonempty,
                RequestState.deliver, noSession, Bool.false_eq_true,
                RequestOutputCollector.put] at delivered waiting
              rw [waiting] at delivered
              cases delivered
              rw [if_pos last]
              rfl
            · have more : (parent.childRequests.erase output.requestId).isEmpty = false := by
                simpa using last
              simp only [more, Bool.false_eq_true, ↓reduceIte, RequestState.deliver,
                some.injEq] at delivered
              rw [if_neg last, ← delivered]
              exact waiting
      · have parentKind : parent.outputKind ≠ .finalOnly := by
          rw [family.outputKind]
          exact finalOnly
        rw [getOutputs_streaming parent completion parentKind listed, some.injEq,
          finishedSame] at outputs
        subst outputs
        rw [madeIs] at left delivered
        obtain ⟨nextFamily, nextQueue, outstanding⟩ := family_turn config self parent
          { parent with
            childRequests := if digested.2.1.isSome = true then
              parent.childRequests.erase output.requestId else parent.childRequests }
          queue reqState _ output.requestId digested.2.1.isSome after.1 family known same rfl rfl
          rfl left
        refine ⟨index, _, reqState, digested, _, known, digest, rfl, idIndex, nextFamily,
          rfl, rfl, inside, was, ?_, ?_, ?_⟩
        · rw [← idIndex]
          exact outstanding
        · intro _
          refine ⟨rfl, _, refreshed, Or.inr ⟨completion, output.kvTransferParams,
            completionIndex.trans indexSame, finishedSame, ?_⟩⟩
          rw [nextQueue, ← delivered]
          simp [RequestState.deliver, noSession, refreshAggregated, parentKind]
        · intro isFinal
          exact absurd isFinal finalOnly

/-- The parent's list under FINAL_ONLY: the entries of finished children are their
final completions, and it is delivered once all are finished. -/
structure Aggregated (config : FanOutRequest State Entry Prob Logprob)
    (front : FanOut State Prob Logprob Experts Params)
    (parent : ParentRequest Prob Logprob Experts) : Prop where
  length : parent.outputAggregator.length = config.n
  entries : ∀ index < config.n, front.Finished config index →
    ∃ completion : CompletionOutput Prob Logprob Experts,
      parent.outputAggregator[index]? = some (some completion) ∧ completion.index = index ∧
        completion.finished = true
  delivered : if front.AllFinished config then
      front.delivered.map (fun output => (output.outputs, output.finished)) =
        [(parent.outputAggregator, true)]
    else front.delivered = []

/-- The outputs of the streaming kinds. -/
structure Streamed (config : FanOutRequest State Entry Prob Logprob)
    (front : FanOut State Prob Logprob Experts Params) : Prop where
  real : ∀ output ∈ front.delivered, none ∉ output.outputs
  flags : (front.delivered.filter RequestOutput.finished).length =
    if front.AllFinished config then 1 else 0
  finals : ∀ index < config.n,
    front.finalsOf index = if front.Finished config index then 1 else 0

theorem delivered_flags :
    (self.delivered.filter RequestOutput.finished).length =
      (self.got.filter RequestOutput.finished).length +
        if self.processor.queue.pendingFinished then 1 else 0 := by
  unfold FanOut.delivered RequestOutputCollector.pendingFinished
  cases self.processor.queue.output with
  | none => simp
  | some output => cases finished : output.finished <;> simp [filter_append, finished]

variable (index : Nat)

theorem delivered_finals :
    self.finalsOf index = (self.got.map fun output => finals index output.outputs).sum +
      self.processor.queue.pendingFinals index := by
  unfold FanOut.finalsOf FanOut.delivered RequestOutputCollector.pendingFinals
  cases self.processor.queue.output <;> simp

theorem delivered_real :
    (∀ output ∈ self.delivered, none ∉ output.outputs) ↔
      (∀ output ∈ self.got, none ∉ output.outputs) ∧ self.processor.queue.PendingReal := by
  unfold FanOut.delivered RequestOutputCollector.PendingReal
  simp only [mem_append, mem_toList]
  constructor
  · intro all
    exact ⟨fun output inGot => all output (Or.inl inGot), fun output held => all output (Or.inr held)⟩
  · rintro ⟨taken, pending⟩ output (inGot | held)
    · exact taken output inGot
    · exact pending output held

variable (finished : Bool)

section
variable (turn : ChildOutput config self next parent parent' index finished)
include turn

/-- After an output of a child the parent lists no child exactly when all children
are finished, provided the output kept the parent open. -/
theorem empty_iff_allFinished
    (keepsOpen : finished = true → self.added = config.n ∨ ∃ other ≠ config.childId index,
      (self.processor.requestStates.get? other).isSome = true) :
    parent'.childRequests = [] ↔ next.AllFinished config := by
  constructor
  · intro empty
    have gone : ∀ id, ¬ (next.processor.requestStates.get? id).isSome = true := by
      intro id present
      have listed := (turn.family.children id).mpr present
      rw [empty] at listed
      cases listed
    cases finished with
    | false =>
      have still := (turn.outstanding (config.childId index)).mpr ⟨turn.was, fun _ => rfl⟩
      exact absurd still (gone _)
    | true =>
      constructor
      · rw [turn.added]
        rcases keepsOpen rfl with all | ⟨other, different, present⟩
        · exact all
        · have still := (turn.outstanding other).mpr ⟨present, fun same => absurd same different⟩
          exact absurd still (gone _)
      · intro other _
        exact gone _
  · rintro ⟨-, none_⟩
    apply eq_nil_iff_forall_not_mem.mpr
    intro id listed
    have present := (turn.family.children id).mp listed
    obtain ⟨reqState, found⟩ := isSome_iff_exists.mp present
    obtain ⟨child, inside, rfl, -⟩ := turn.family.states id reqState found
    exact none_ child (by have := turn.family.added; omega) present

theorem finished_turn {other : Nat} :
    next.Finished config other ↔
      self.Finished config other ∨ (other = index ∧ finished = true) := by
  unfold FanOut.Finished FanOut.Outstanding
  rw [turn.added, turn.outstanding]
  have inside := turn.inside
  have was := turn.was
  unfold FanOut.Outstanding at was
  by_cases same : other = index
  · subst same
    cases finished <;> simp [inside, was]
  · have different : config.childId other ≠ config.childId index :=
      fun equal => same (childReqId_injective equal)
    simp [same, different]

end

theorem not_allFinished (bound : self.added ≤ config.n) (inside : index < self.added)
    (was : self.Outstanding config index) :
    ¬ self.AllFinished config :=
  fun all => all.2 index (by omega) was

theorem streamed_output (family : Family config self parent)
    (turn : ChildOutput config self next parent parent' index finished)
    (streaming : config.request.outputKind ≠ .finalOnly)
    (keepsOpen : finished = true → self.added = config.n ∨ ∃ other ≠ config.childId index,
      (self.processor.requestStates.get? other).isSome = true) (streamed : Streamed config self) :
    Streamed config next := by
  have isEmpty := empty_iff_allFinished config self next parent parent' index finished turn keepsOpen
  have notAll := not_allFinished config self index family.added turn.inside turn.was
  have notFinished : ¬ self.Finished config index := fun is => is.2 turn.was
  have indexLt : index < config.n := by
    have := turn.inside
    have := family.added
    omega
  obtain ⟨-, queue, same, put⟩ := turn.streaming streaming
  have oldFlags := streamed.flags
  have oldFinals := streamed.finals
  have oldReal := (delivered_real self).mp streamed.real
  rw [if_neg notAll, delivered_flags] at oldFlags
  have noneWaits : self.processor.queue.pendingFinished = false := by
    cases held : self.processor.queue.pendingFinished with
    | false => rfl
    | true => rw [held] at oldFlags; simp at oldFlags
  have mine := oldFinals index indexLt
  rw [if_neg notFinished, delivered_finals] at mine
  rcases put with ⟨unfinished, held⟩ | ⟨completion, params, rightIndex, rightFinish, put⟩
  · -- nothing was sent, and the child is still outstanding
    have notAllAfter : ¬ next.AllFinished config := by
      intro all
      have empty := isEmpty.mpr all
      have still := (turn.outstanding (config.childId index)).mpr ⟨turn.was, fun _ => unfinished⟩
      have listed := (turn.family.children _).mpr still
      rw [empty] at listed
      cases listed
    constructor
    · rw [delivered_real, turn.got, held]
      exact ⟨oldReal.1, same.real oldReal.2⟩
    · rw [delivered_flags, turn.got, held, same.finished, if_neg notAllAfter]
      exact oldFlags
    · intro other inside
      rw [delivered_finals, turn.got, held, same.finals, ← delivered_finals, oldFinals other inside]
      simp [finished_turn config self next parent parent' index finished turn, unfinished]
  · obtain ⟨real, flag, others, new⟩ := put_single put
    constructor
    · rw [delivered_real, turn.got]
      exact ⟨oldReal.1, real (same.real oldReal.2)⟩
    · rw [delivered_flags, turn.got, flag, same.finished, noneWaits]
      simp only [noneWaits, Bool.false_eq_true, ↓reduceIte, Nat.add_zero] at oldFlags
      rw [oldFlags, Bool.false_or, Nat.zero_add]
      simp only [List.isEmpty_iff, isEmpty]
    · intro other inside
      rw [delivered_finals, turn.got]
      simp only [finished_turn config self next parent parent' index finished turn]
      by_cases here : other = index
      · subst here
        rw [rightIndex] at new
        rw [new (by rw [same.finals]; omega), rightFinish]
        simp only [notFinished, false_or, true_and]
        have taken : (self.got.map fun output => finals other output.outputs).sum = 0 := by omega
        rw [taken, Nat.zero_add]
      · rw [others other (by rw [rightIndex]; exact here), same.finals, ← delivered_finals,
          oldFinals other inside]
        simp [here]

theorem aggregated_output (family : Family config self parent)
    (turn : ChildOutput config self next parent parent' index finished)
    (finalOnly : config.request.outputKind = .finalOnly)
    (keepsOpen : finished = true → self.added = config.n ∨ ∃ other ≠ config.childId index,
      (self.processor.requestStates.get? other).isSome = true)
    (aggregated : Aggregated config self parent) : Aggregated config next parent' := by
  have isEmpty := empty_iff_allFinished config self next parent parent' index finished turn keepsOpen
  have notAll := not_allFinished config self index family.added turn.inside turn.was
  have indexLt : index < config.n := by
    have := turn.inside
    have := family.added
    omega
  have nothing := aggregated.delivered
  rw [if_neg notAll] at nothing
  have noneGot : self.got = [] := (append_eq_nil_iff.mp nothing).1
  have noneWaits : self.processor.queue.output = none := by
    have := (append_eq_nil_iff.mp nothing).2
    simpa using this
  have turned := turn.finalOnly finalOnly (by rw [aggregated.length]; exact indexLt) noneWaits
  cases finished with
  | false =>
    have notAllAfter : ¬ next.AllFinished config := by
      intro all
      have empty := isEmpty.mpr all
      have still := (turn.outstanding (config.childId index)).mpr ⟨turn.was, fun _ => rfl⟩
      have listed := (turn.family.children _).mpr still
      rw [empty] at listed
      cases listed
    constructor
    · rw [turned.1]
      exact aggregated.length
    · intro other inside is
      rw [turned.1]
      apply aggregated.entries other inside
      simpa [finished_turn config self next parent parent' index false turn] using is
    · rw [if_neg notAllAfter]
      simp [FanOut.delivered, turn.got, noneGot, turned.2]
  | true =>
    obtain ⟨completion, rightIndex, rightFinish, list, put⟩ := turned
    constructor
    · rw [list, length_set]
      exact aggregated.length
    · intro other inside is
      rw [list]
      by_cases here : other = index
      · subst here
        refine ⟨completion, ?_, rightIndex, rightFinish⟩
        rw [getElem?_set_self (by rw [aggregated.length]; exact inside)]
      · rw [getElem?_set_ne (Ne.symm here)]
        apply aggregated.entries other inside
        rcases (finished_turn config self next parent parent' index true turn).mp is with
          before | now
        · exact before
        · exact absurd now.1 here
    · by_cases all : next.AllFinished config
      · rw [if_pos (isEmpty.mpr all)] at put
        obtain ⟨output, held, shape⟩ := map_eq_some_iff.mp put
        rw [if_pos all]
        simp [FanOut.delivered, turn.got, noneGot, held, shape]
      · rw [if_neg (mt isEmpty.mp all)] at put
        rw [if_neg all]
        simp [FanOut.delivered, turn.got, noneGot, put]

theorem streamed_same (delivered : next.delivered = self.delivered)
    (all : next.AllFinished config ↔ self.AllFinished config)
    (each : ∀ index < config.n, next.Finished config index ↔ self.Finished config index)
    (streamed : Streamed config self) : Streamed config next := by
  constructor
  · rw [delivered]
    exact streamed.real
  · simp only [delivered, all]
    exact streamed.flags
  · intro index inside
    unfold FanOut.finalsOf
    simp only [delivered, each index inside]
    exact streamed.finals index inside

theorem aggregated_same (delivered : next.delivered = self.delivered)
    (aggregator : parent'.outputAggregator = parent.outputAggregator)
    (all : next.AllFinished config ↔ self.AllFinished config)
    (each : ∀ index < config.n, next.Finished config index ↔ self.Finished config index)
    (aggregated : Aggregated config self parent) : Aggregated config next parent' := by
  constructor
  · rw [aggregator]
    exact aggregated.length
  · intro index inside is
    rw [aggregator]
    exact aggregated.entries index inside ((each index inside).mp is)
  · simp only [delivered, aggregator, all]
    exact aggregated.delivered

/-- The invariant of a run that keeps the parent open. -/
structure Progress (config : FanOutRequest State Entry Prob Logprob)
    (front : FanOut State Prob Logprob Experts Params)
    (parent : ParentRequest Prob Logprob Experts) : Prop where
  family : Family config front parent
  notEarly : ∀ output ∈ front.got, output.finished = true → front.AllFinished config
  streamed : config.request.outputKind ≠ .finalOnly → Streamed config front
  aggregated : config.request.outputKind = .finalOnly → Aggregated config front parent

theorem Progress.once {config : FanOutRequest State Entry Prob Logprob}
    {front : FanOut State Prob Logprob Experts Params}
    {parent : ParentRequest Prob Logprob Experts} (progress : Progress config front parent) :
    (front.delivered.filter RequestOutput.finished).length =
      if front.AllFinished config then 1 else 0 := by
  by_cases finalOnly : config.request.outputKind = .finalOnly
  · have list := (progress.aggregated finalOnly).delivered
    split at list
    · rename_i all
      rw [if_pos all]
      obtain ⟨output, only, shape⟩ := map_eq_singleton_iff.mp list
      have finished : output.finished = true := congrArg Prod.snd shape
      simp [only, finished]
    · rename_i notAll
      rw [if_neg notAll, list]
      rfl
  · exact (progress.streamed finalOnly).flags

theorem init_progress (many : 0 < config.n) :
    ∃ parent, Progress config (FanOut.init config : FanOut State Prob Logprob Experts Params) parent := by
  have notAll : ¬ (FanOut.init config : FanOut State Prob Logprob Experts Params).AllFinished config := by
    intro all
    have : 0 = config.n := all.1
    omega
  have noneFinished : ∀ index,
      ¬ (FanOut.init config : FanOut State Prob Logprob Experts Params).Finished config index :=
    fun index is => Nat.not_lt_zero _ is.1
  refine ⟨_, init_family config, ?_, ?_, ?_⟩
  · intro output inGot
    cases inGot
  · intro _
    constructor
    · intro output inDelivered
      cases inDelivered
    · rw [if_neg notAll]
      rfl
    · intro index _
      rfl
  · intro finalOnly
    constructor
    · simp [ParentRequest.init, finalOnly]
    · intro index _ is
      exact absurd is (noneFinished index)
    · rw [if_neg notAll]
      rfl

theorem step_progress (step : Step Entry Experts Params)
    (parent : ParentRequest Prob Logprob Experts) (progress : Progress config self parent)
    (keepsOpen : step.KeepsOpen config self) (done : self.step config step = some next) :
    ∃ parent', Progress config next parent' := by
  cases step with
  | addChild =>
    obtain ⟨parent', added⟩ := addChild_family config self next parent progress.family done
    have delivered : next.delivered = self.delivered := by
      unfold FanOut.delivered
      rw [added.got, added.queue]
    -- neither state has all children finished: one is missing, or is just added
    have before : ¬ self.AllFinished config := by
      intro all
      have := added.room
      have := all.1
      omega
    have after : ¬ next.AllFinished config :=
      fun all => all.2 self.added added.room ((added.outstanding _).mpr (Or.inl rfl))
    have all : next.AllFinished config ↔ self.AllFinished config :=
      ⟨fun is => absurd is after, fun is => absurd is before⟩
    have each : ∀ index < config.n, next.Finished config index ↔ self.Finished config index := by
      intro index _
      unfold FanOut.Finished
      rw [added.outstanding, added.added]
      by_cases here : index = self.added
      · simp [here]
      · have : index < self.added + 1 ↔ index < self.added := by omega
        simp [here, this]
    refine ⟨parent', added.family, ?_, ?_, ?_⟩
    · rw [added.got]
      intro output inGot finished
      exact absurd (progress.notEarly output inGot finished) before
    · intro streaming
      exact streamed_same config self next delivered all each (progress.streamed streaming)
    · intro finalOnly
      exact aggregated_same config self next parent parent' delivered added.aggregator all each
        (progress.aggregated finalOnly)
  | engineOutput output =>
    simp only [FanOut.step, map_eq_some_iff] at done
    obtain ⟨after, done, rfl⟩ := done
    rcases engineOutput_child config self parent progress.family output after done with
      same | ⟨index, parent', reqState, digested, finished, known, digest, is, idIs, turn⟩
    · rw [same]
      exact ⟨parent, progress⟩
    · have stays : finished = true → self.added = config.n ∨ ∃ other ≠ config.childId index,
          (self.processor.requestStates.get? other).isSome = true := by
        intro yes
        rw [← idIs]
        exact keepsOpen reqState digested known digest (is.trans yes)
      have notAll := not_allFinished config self index progress.family.added turn.inside turn.was
      refine ⟨parent', turn.family, ?_, ?_, ?_⟩
      · intro taken inGot flag
        exact absurd (progress.notEarly taken inGot flag) notAll
      · intro streaming
        exact streamed_output config self _ parent parent' index finished progress.family turn
          streaming stays (progress.streamed streaming)
      · intro finalOnly
        exact aggregated_output config self _ parent parent' index finished progress.family turn
          finalOnly stays (progress.aggregated finalOnly)
  | get =>
    simp only [FanOut.step, FanOut.get] at done
    split at done
    · obtain ⟨output, held, rfl⟩ := map_eq_some_iff.mp done
      have delivered : (self.got ++ [output]) = self.delivered := by
        simp [FanOut.delivered, held]
      have family := progress.family
      refine ⟨parent, ⟨family.held, family.parentId, family.outputKind, family.added,
        family.states, family.children, family.unique⟩, ?_, ?_, ?_⟩
      · intro taken inGot finished
        -- a finished output that was delivered tells that all children are finished
        have inDelivered : taken ∈ self.delivered := delivered ▸ inGot
        have once := progress.once
        by_contra notAll
        rw [if_neg (show ¬ self.AllFinished config from notAll), length_eq_zero_iff] at once
        have inFilter := mem_filter.mpr ⟨inDelivered, finished⟩
        rw [once] at inFilter
        cases inFilter
      · intro streaming
        exact streamed_same config self _ (by simpa [FanOut.delivered, RequestOutputCollector.take]
          using delivered) Iff.rfl (fun _ _ => Iff.rfl) (progress.streamed streaming)
      · intro finalOnly
        exact aggregated_same config self _ parent parent (by
          simpa [FanOut.delivered, RequestOutputCollector.take] using delivered) rfl Iff.rfl
          (fun _ _ => Iff.rfl) (progress.aggregated finalOnly)
    · cases done

theorem run_progress (steps : List (Step Entry Experts Params))
    (self last : FanOut State Prob Logprob Experts Params)
    (parent : ParentRequest Prob Logprob Experts) (progress : Progress config self parent)
    (keepsOpen : KeepsOpen config self steps) (ran : self.run config steps = some last) :
    ∃ parent', Progress config last parent' := by
  induction steps generalizing self parent with
  | nil =>
    cases ran
    exact ⟨parent, progress⟩
  | cons step rest ih =>
    simp only [FanOut.run, bind_eq_some_iff] at ran
    obtain ⟨next, first, later⟩ := ran
    obtain ⟨parent', nextProgress⟩ := step_progress config self next step parent progress
      keepsOpen.1 first
    exact ih next parent' nextProgress (keepsOpen.2 next first) later

/-- However the additions of the children, the engine outputs and the consumer's
turns interleave: the parent completes exactly once, as long as no child that is
the only outstanding one finishes before all children are added. -/
theorem parallel_sampling_completes_once (config : FanOutRequest State Entry Prob Logprob)
    (steps : List (Step Entry Experts Params)) (last : FanOut State Prob Logprob Experts Params)
    (many : 1 < config.n) (keepsOpen : KeepsOpen config (FanOut.init config) steps)
    (ran : (FanOut.init config).run config steps = some last) : CompletesOnce config last := by
  obtain ⟨parent, started⟩ := @init_progress _ _ _ _ Experts Params config (by omega)
  obtain ⟨parent', progress⟩ := run_progress config steps _ last parent started keepsOpen ran
  constructor
  · exact progress.notEarly
  · exact progress.once
  · intro finalOnly
    have aggregated := progress.aggregated finalOnly
    by_cases all : last.AllFinished config
    · have list := aggregated.delivered
      rw [if_pos all] at list
      obtain ⟨output, only, shape⟩ := map_eq_singleton_iff.mp list
      rw [only, if_pos all]
      constructor
      · intro other inDelivered
        have list : output.outputs = parent'.outputAggregator := congrArg Prod.fst shape
        rw [mem_singleton.mp inDelivered, list]
        refine ⟨aggregated.length, ?_⟩
        intro index inside
        exact aggregated.entries index inside ⟨by rw [all.1]; exact inside, all.2 index inside⟩
      · rfl
    · have list := aggregated.delivered
      rw [if_neg all] at list
      rw [list, if_neg all]
      constructor
      · intro other inDelivered
        cases inDelivered
      · rfl
  · intro streaming
    exact ⟨(progress.streamed streaming).real, (progress.streamed streaming).finals⟩

/-- Every token is the letter a. -/
def letterTokenizer : Tokenizer Unit Unit Unit Unit :=
  ⟨fun _ _ _ => (['a'], ()), fun _ _ => (), fun _ _ => ()⟩

def pairRequest (outputKind : RequestOutputKind) : FanOutRequest Unit Unit Unit Unit where
  tokenizer := letterTokenizer
  zero := ()
  streamInterval := 1
  request :=
    { requestId := ['r'], resumable := false, promptTokenIds := some [1], outputKind := outputKind
      stop := ⟨[], List.not_mem_nil⟩, minTokens := 0, includeStopStrInOutput := false
      decoder := some (), primed := [], logprobs := false }
  notResumable := rfl
  prompt := none
  n := 2

/-- A child's only token, which reaches its length limit. -/
def lastToken (index : Nat) : EngineCoreOutput Unit Unit Unit where
  requestId := childReqId ['r'] index
  newTokenIds := [5]
  newLogprobs := none
  finishReason := some .length
  stopReason := none
  kvTransferParams := none
  routedExperts := none

/-- The first child finishes while the second is not added yet. -/
def earlyFinish : List (Step Unit Unit Unit) :=
  [.addChild, .engineOutput (lastToken 0), .addChild, .get]

/-- The consumer of both kinds is told that the parent is finished while the second
child runs, and under FINAL_ONLY its list has a placeholder. -/
theorem earlyFinish_not_once :
    (∃ last, (FanOut.init (pairRequest .delta)).run (pairRequest .delta) earlyFinish = some last ∧
      ¬ CompletesOnce (pairRequest .delta) last) ∧
    ∃ last, (FanOut.init (pairRequest .finalOnly)).run (pairRequest .finalOnly) earlyFinish =
        some last ∧
      last.got.map (fun output => output.outputs.map Option.isSome) = [[true, false]] ∧
      ¬ CompletesOnce (pairRequest .finalOnly) last := by
  constructor
  · refine ⟨_, rfl, ?_⟩
    intro once
    exact (once.notEarly _ mem_cons_self rfl).2 1 (by decide) rfl
  · refine ⟨_, rfl, rfl, ?_⟩
    intro once
    exact (once.notEarly _ mem_cons_self rfl).2 1 (by decide) rfl

/-- Both children are added before the first one finishes. -/
def orderlyFinish : List (Step Unit Unit Unit) :=
  [.addChild, .addChild, .engineOutput (lastToken 0), .engineOutput (lastToken 1), .get]

theorem orderlyFinish_once :
    ∃ last, (FanOut.init (pairRequest .finalOnly)).run (pairRequest .finalOnly) orderlyFinish =
        some last ∧ CompletesOnce (pairRequest .finalOnly) last := by
  refine ⟨_, rfl, parallel_sampling_completes_once (pairRequest .finalOnly) orderlyFinish _
    (by decide) ?_ rfl⟩
  refine ⟨trivial, ?_⟩
  rintro _ ⟨⟩
  refine ⟨trivial, ?_⟩
  rintro _ ⟨⟩
  refine ⟨fun _ _ _ _ _ => Or.inl rfl, ?_⟩
  rintro _ ⟨⟩
  refine ⟨fun _ _ _ _ _ => Or.inl rfl, ?_⟩
  rintro _ ⟨⟩
  exact ⟨trivial, fun _ _ => trivial⟩

end VllmDcu.ParallelSampling

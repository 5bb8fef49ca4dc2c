import VllmDcu.OutputProcessing

/-! The maps of the output processor: the live requests, the external ids and the parents, over any
number of requests. What a request's detokenizer and logprobs say is given with each call; `none` is a
raised exception. -/
namespace VllmDcu.RequestTracking
open RequestOutputs
open OutputProcessing (RequestId ParentRequest childReqId)

local instance lawfulRequestId : LawfulBEq RequestId := inferInstance

/-- The chunks of a session count by their `final` flag. -/
structure RequestState where
  requestId : RequestId
  externalReqId : RequestId
  parentReq : Option RequestId
  requestIndex : Nat
  outputKind : RequestOutputKind
  queue : Bool
  streamingInput : Bool
  inputChunkQueue : Option (List Bool)
  deriving DecidableEq, Repr

/-- `parents` are the parent objects by their ids: the callers' and the children's references to them.
`parentRequests` are the keys under which the processor itself holds one. -/
structure OutputProcessor (Prob Logprob Experts : Type) where
  requestStates : Dict RequestId RequestState
  parentRequests : List RequestId
  externalReqIds : Dict RequestId (List RequestId)
  parents : Dict RequestId (ParentRequest Prob Logprob Experts)

structure EngineCoreRequest where
  requestId : RequestId
  externalReqId : RequestId
  resumable : Bool
  outputKind : RequestOutputKind

/-- An output of the engine with what the detokenizer makes of it. A stream interval may hold an
output back that does not finish the request. -/
structure EngineCoreOutput (Prob Logprob Experts : Type) where
  requestId : RequestId
  finishReason : Option FinishReason
  stopString : Bool
  heldBack : Bool
  said : CompletionOutput Prob Logprob Experts

variable {Prob Logprob Experts : Type}

def EngineCoreOutput.finalReason (self : EngineCoreOutput Prob Logprob Experts) :
    Option FinishReason :=
  if self.stopString then some .stop else self.finishReason

def RequestState.applyStreamingUpdate (self : RequestState) (final : Bool) : RequestState :=
  { self with streamingInput := !final }

def RequestState.fromNewRequest (request : EngineCoreRequest) (parentReq : Option RequestId)
    (requestIndex : Nat) (queue : Bool) : RequestState where
  requestId := request.requestId
  externalReqId := request.externalReqId
  parentReq := parentReq
  requestIndex := requestIndex
  outputKind := request.outputKind
  queue := queue
  streamingInput := request.resumable
  inputChunkQueue := if request.resumable then some [] else none

namespace OutputProcessor

def init : OutputProcessor Prob Logprob Experts := ⟨.empty, [], .empty, .empty⟩

/-- What the `defaultdict` holds for an external id. -/
def internalIds (self : OutputProcessor Prob Logprob Experts) (externalReqId : RequestId) :
    List RequestId :=
  (self.externalReqIds.get? externalReqId).getD []

/-- The parent hears of a completion of its child. -/
def makeRequestOutput (self : OutputProcessor Prob Logprob Experts) (reqState : RequestState)
    (said : CompletionOutput Prob Logprob Experts) (finishReason : Option FinishReason)
    (heldBack : Bool) : Option (OutputProcessor Prob Logprob Experts) :=
  if finishReason = none ∧ (reqState.outputKind = .finalOnly ∨ heldBack = true) then some self
  else match reqState.parentReq with
    | none => some self
    | some parentId => do
        let parent ← self.parents.get? parentId
        let got ← parent.getOutputs reqState.requestId
          { said with index := reqState.requestIndex, finishReason := finishReason }
        some { self with parents := self.parents.set parentId got.1 }

/-- `internal_ids.remove`, which raises when the id is not listed; an empty list is deleted. -/
def forgetInternal (self : OutputProcessor Prob Logprob Experts) (reqState : RequestState) :
    Option (OutputProcessor Prob Logprob Experts) :=
  let internalIds := self.internalIds reqState.externalReqId
  if reqState.requestId ∈ internalIds then
    let left := internalIds.erase reqState.requestId
    some { self with externalReqIds :=
      if left = [] then self.externalReqIds.erase reqState.externalReqId
      else self.externalReqIds.set reqState.externalReqId left }
  else none

/-- The end of `_finish_request`: the parent goes with its last child. -/
def dropParent (self : OutputProcessor Prob Logprob Experts) (reqState : RequestState) :
    Option (OutputProcessor Prob Logprob Experts) :=
  match reqState.parentReq with
  | none => some self
  | some parentId => (self.parents.get? parentId).map fun parent =>
    if parent.childRequests = [] then
      { self with parentRequests := self.parentRequests.filter fun id => decide (id ≠ parentId) }
    else self

def finishRequest (self : OutputProcessor Prob Logprob Experts) (reqState : RequestState) :
    Option (OutputProcessor Prob Logprob Experts) := do
  let popped := { self with requestStates := self.requestStates.erase reqState.requestId }
  let forgotten ← popped.forgetInternal reqState
  forgotten.dropParent reqState

/-! Adding. -/

/-- The last queued chunk of a session is marked. -/
def markFinal : List Bool → List Bool
  | [] => []
  | [_] => [true]
  | final :: rest => final :: markFinal rest

def updateStreamingRequestState (self : OutputProcessor Prob Logprob Experts)
    (reqState : RequestState) (request : EngineCoreRequest) :
    Option (OutputProcessor Prob Logprob Experts) :=
  let put (next : RequestState) :=
    some { self with requestStates := self.requestStates.set reqState.requestId next }
  if request.resumable = false then
    match reqState.inputChunkQueue with
    | none => self.finishRequest reqState
    | some [] => put { reqState with streamingInput := false }
    | some queued => put { reqState with inputChunkQueue := some (markFinal queued) }
  else
    match reqState.inputChunkQueue with
    | none => put { reqState.applyStreamingUpdate false with inputChunkQueue := some [] }
    | some queued => put { reqState with inputChunkQueue := some (queued ++ [false]) }

def addRequest (self : OutputProcessor Prob Logprob Experts) (request : EngineCoreRequest)
    (parentReq : Option RequestId) (requestIndex : Nat) (queue : Bool) :
    Option (OutputProcessor Prob Logprob Experts) :=
  match self.requestStates.get? request.requestId with
  | some reqState => self.updateStreamingRequestState reqState request
  | none =>
    let reqState := RequestState.fromNewRequest request parentReq requestIndex queue
    some { self with
      requestStates := self.requestStates.set request.requestId reqState
      parentRequests :=
        match parentReq with
        | some parentId =>
          if parentId ∈ self.parentRequests then self.parentRequests
          else self.parentRequests ++ [parentId]
        | none => self.parentRequests
      externalReqIds := self.externalReqIds.set reqState.externalReqId
        (self.internalIds reqState.externalReqId ++ [request.requestId]) }

/-- One turn of the fan-out: `get_child_info`, and the child's `add_request`. -/
def addChild (self : OutputProcessor Prob Logprob Experts) (parentId externalReqId : RequestId)
    (index : Nat) (queue : Bool) : Option (OutputProcessor Prob Logprob Experts) := do
  let parent ← self.parents.get? parentId
  let child := parent.getChildInfo index
  addRequest { self with parents := self.parents.set parentId child.1 }
    ⟨child.2, externalReqId, false, parent.outputKind⟩ (some parentId) index queue

/-! Outputs. -/

def processOutput (self : OutputProcessor Prob Logprob Experts)
    (output : EngineCoreOutput Prob Logprob Experts) :
    Option (OutputProcessor Prob Logprob Experts) :=
  match self.requestStates.get? output.requestId with
  | none => some self
  | some reqState => do
      let made ← self.makeRequestOutput reqState output.said output.finalReason output.heldBack
      if output.finalReason = none then some made
      else if reqState.streamingInput then
        let next :=
          match reqState.inputChunkQueue with
          | some (final :: rest) =>
            { reqState.applyStreamingUpdate final with inputChunkQueue := some rest }
          | _ => { reqState with inputChunkQueue := none }
        some { made with requestStates := made.requestStates.set reqState.requestId next }
      else made.finishRequest reqState

def processOutputs : OutputProcessor Prob Logprob Experts →
    List (EngineCoreOutput Prob Logprob Experts) → Option (OutputProcessor Prob Logprob Experts)
  | self, [] => some self
  | self, output :: rest => (self.processOutput output).bind fun next => next.processOutputs rest

/-! Aborts. -/

/-- The first loop of `abort_requests` for internal ids, which are then the ids to abort. -/
def collectInternal : OutputProcessor Prob Logprob Experts → List RequestId →
    Option (OutputProcessor Prob Logprob Experts)
  | self, [] => some self
  | self, requestId :: rest =>
    match self.requestStates.get? requestId with
    | some reqState => (self.forgetInternal reqState).bind fun next => next.collectInternal rest
    | none => self.collectInternal rest

/-- The first loop for external ids, with the internal ids to abort. -/
def collectExternal : OutputProcessor Prob Logprob Experts → List RequestId →
    OutputProcessor Prob Logprob Experts × List RequestId
  | self, [] => (self, [])
  | self, requestId :: rest =>
    let popped := { self with externalReqIds := self.externalReqIds.erase requestId }
    let more := popped.collectExternal rest
    (more.1, self.internalIds requestId ++ more.2)

section Abort
variable (said : RequestId → CompletionOutput Prob Logprob Experts)
variable (recurse : OutputProcessor Prob Logprob Experts → List RequestId →
  Option (OutputProcessor Prob Logprob Experts × List RequestId))

/-- A parent that lists no child needs no further call. -/
def abortChildren (self : OutputProcessor Prob Logprob Experts)
    (parent : ParentRequest Prob Logprob Experts) :
    Option (OutputProcessor Prob Logprob Experts × List RequestId) :=
  if parent.childRequests = [] then some (self, []) else recurse self parent.childRequests

/-- One turn of the second loop, with the ids that it aborts. -/
def abortOne (self : OutputProcessor Prob Logprob Experts) (requestId : RequestId) :
    Option (OutputProcessor Prob Logprob Experts × List RequestId) :=
  match self.requestStates.get? requestId with
  | some reqState =>
    let popped := { self with requestStates := self.requestStates.erase requestId }
    if reqState.queue then
      (popped.makeRequestOutput reqState (said requestId) (some .abort) false).map fun next =>
        (next, [requestId])
    else some (popped, [requestId])
  | none =>
    if requestId ∈ self.parentRequests then do
      let parent ← self.parents.get? requestId
      let aborted ← abortChildren recurse self parent
      some ({ aborted.1 with parentRequests :=
        aborted.1.parentRequests.filter fun id => decide (id ≠ requestId) }, aborted.2)
    else some (self, [])

def abortEach : OutputProcessor Prob Logprob Experts → List RequestId →
    Option (OutputProcessor Prob Logprob Experts × List RequestId)
  | self, [] => some (self, [])
  | self, requestId :: rest => do
      let one ← abortOne said recurse self requestId
      let more ← abortEach one.1 rest
      some (more.1, one.2 ++ more.2)

end Abort

/-- `depth` bounds the nesting of the calls for the children of a parent. -/
def abortRequests (said : RequestId → CompletionOutput Prob Logprob Experts) :
    Nat → OutputProcessor Prob Logprob Experts → List RequestId → Bool →
    Option (OutputProcessor Prob Logprob Experts × List RequestId)
  | 0, _, _, _ => none
  | depth + 1, self, requestIds, internal =>
    let recurse := fun processor children => abortRequests said depth processor children true
    if internal then
      (self.collectInternal requestIds).bind fun next => abortEach said recurse next requestIds
    else
      let collected := self.collectExternal requestIds
      abortEach said recurse collected.1 collected.2

/-! Runs of the front end. -/

inductive Step (Prob Logprob Experts : Type) where
  /-- The caller makes the parent of a request with `n` children. -/
  | newParent (requestId : RequestId) (n : Nat) (outputKind : RequestOutputKind)
  | addChild (parentId externalReqId : RequestId) (index : Nat) (queue : Bool)
  | add (request : EngineCoreRequest) (queue : Bool)
  | processOutputs (outputs : List (EngineCoreOutput Prob Logprob Experts))
  | abort (requestIds : List RequestId) (internal : Bool)
      (said : RequestId → CompletionOutput Prob Logprob Experts)

def step (self : OutputProcessor Prob Logprob Experts) :
    Step Prob Logprob Experts → Option (OutputProcessor Prob Logprob Experts)
  | .newParent requestId n outputKind =>
    some { self with
      parents := self.parents.set requestId (ParentRequest.init requestId n outputKind) }
  | .addChild parentId externalReqId index queue =>
    self.addChild parentId externalReqId index queue
  | .add request queue => self.addRequest request none 0 queue
  | .processOutputs outputs => self.processOutputs outputs
  -- children are not parents, so the calls nest at most twice
  | .abort requestIds internal said =>
    (abortRequests said 2 self requestIds internal).map Prod.fst

/-- An internal id that no parent has made or may make for a child. -/
structure NewId (processor : OutputProcessor Prob Logprob Experts) (requestId : RequestId) :
    Prop where
  noParent : processor.parents.get? requestId = none
  noChild : ∀ parentId parent, processor.parents.get? parentId = some parent →
    ∀ index, requestId ≠ childReqId parentId index

/-- What the callers keep: internal ids are unique, only a session without children goes on, and the
ids of one abort are distinct. -/
def Promised (self : OutputProcessor Prob Logprob Experts) : Step Prob Logprob Experts → Prop
  | .newParent requestId _ _ => self.requestStates.get? requestId = none ∧ NewId self requestId ∧
      ∀ index, self.requestStates.get? (childReqId requestId index) = none ∧
        self.parents.get? (childReqId requestId index) = none
  | .addChild parentId _ index _ => ∃ parent, self.parents.get? parentId = some parent ∧
      index < parent.n ∧ self.requestStates.get? (childReqId parentId index) = none
  | .add request _ =>
    match self.requestStates.get? request.requestId with
    | some reqState => reqState.parentReq = none
    | none => NewId self request.requestId
  | .processOutputs _ => True
  | .abort requestIds _ _ => requestIds.Nodup

def PromisedRun : OutputProcessor Prob Logprob Experts → List (Step Prob Logprob Experts) → Prop
  | _, [] => True
  | self, step :: rest => Promised self step ∧
      ∀ next, self.step step = some next → PromisedRun next rest

def ChildOf (self : OutputProcessor Prob Logprob Experts) (parentId id : RequestId) : Prop :=
  ∃ reqState, self.requestStates.get? id = some reqState ∧ reqState.parentReq = some parentId

/-- What the maps are for. -/
structure Tracks (processor : OutputProcessor Prob Logprob Experts) : Prop where
  externalReqIds : ∀ externalReqId id, id ∈ processor.internalIds externalReqId ↔
    ∃ reqState, processor.requestStates.get? id = some reqState ∧
      reqState.externalReqId = externalReqId
  distinct : ∀ externalReqId, (processor.internalIds externalReqId).Nodup
  nonempty : ∀ externalReqId ids, processor.externalReqIds.get? externalReqId = some ids → ids ≠ []
  parentRequests : ∀ parentId, parentId ∈ processor.parentRequests ↔
    ∃ id, processor.ChildOf parentId id

/-- Every call of the run returns, and the maps are right after it. -/
def TracksRun : OutputProcessor Prob Logprob Experts → List (Step Prob Logprob Experts) → Prop
  | self, [] => self.Tracks
  | self, step :: rest => self.Tracks ∧ ∃ next, self.step step = some next ∧ TracksRun next rest

/-- When an output finishes the last live child of a parent, the parent lists no other child. -/
def ListsNoOther (self : OutputProcessor Prob Logprob Experts)
    (output : EngineCoreOutput Prob Logprob Experts) : Prop :=
  output.finalReason ≠ none → ∀ parentId parent, self.ChildOf parentId output.requestId →
    self.parents.get? parentId = some parent →
    (∃ other ≠ output.requestId, self.ChildOf parentId other) ∨
      ∀ id ∈ parent.childRequests, id = output.requestId

def ListsNoOthers : OutputProcessor Prob Logprob Experts →
    List (EngineCoreOutput Prob Logprob Experts) → Prop
  | _, [] => True
  | self, output :: rest => self.ListsNoOther output ∧
      ∀ next, self.processOutput output = some next → ListsNoOthers next rest

/-- The abort leaves each parent a child or names the parent, and names no child after its parent. -/
structure KeepsFamilies (processor : OutputProcessor Prob Logprob Experts)
    (requestIds : List RequestId) (internal : Bool) : Prop where
  keepsChild : ∀ parentId ∈ processor.parentRequests,
    (internal = true ∧ parentId ∈ requestIds) ∨
      ∃ id reqState, processor.requestStates.get? id = some reqState ∧
        reqState.parentReq = some parentId ∧
        (if internal then id else reqState.externalReqId) ∉ requestIds
  childrenFirst : internal = true → ∀ before parentId after,
    requestIds = before ++ parentId :: after →
    ∀ id ∈ after, ¬ processor.ChildOf parentId id

def Clean (self : OutputProcessor Prob Logprob Experts) : Step Prob Logprob Experts → Prop
  | .processOutputs outputs => self.ListsNoOthers outputs
  | .abort requestIds internal _ => KeepsFamilies self requestIds internal
  | _ => True

def CleanRun : OutputProcessor Prob Logprob Experts → List (Step Prob Logprob Experts) → Prop
  | _, [] => True
  | self, step :: rest => self.Clean step ∧
      ∀ next, self.step step = some next → CleanRun next rest

end OutputProcessor
end VllmDcu.RequestTracking

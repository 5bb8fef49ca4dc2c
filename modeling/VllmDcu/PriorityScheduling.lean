import VllmDcu.PriorityQueues

/-! How the scheduler moves requests between its queues under the PRIORITY policy.
What is scheduled, promoted or stopped is left open; the queues and the fields that
order them are not. -/
namespace VllmDcu.PriorityScheduling
open Requests HeapQueue PriorityQueues

/-- The step queue exists while `schedule()` goes through the waiting requests. -/
structure Scheduler where
  objects : Objects
  requests : Dict ReqId Ref
  running : List Ref
  waiting : PriorityRequestQueue
  skippedWaiting : PriorityRequestQueue
  stepSkippedWaiting : Option PriorityRequestQueue

namespace Scheduler

def init (objects : Objects) : Scheduler := ⟨objects, .empty, [], .empty, .empty, none⟩

def setObject (self : Scheduler) (ref : Ref) (request : QueuedRequest) : Scheduler :=
  { self with objects := Function.update self.objects ref request }

theorem setObject_self (self : Scheduler) (ref : Ref) (request : QueuedRequest) :
    (self.setObject ref request).objects ref = request := by
  simp [setObject]

theorem setObject_other (self : Scheduler) {ref other : Ref} (differs : other ≠ ref) (request : QueuedRequest) :
    (self.setObject ref request).objects other = self.objects other := by
  simp [setObject, differs]

def setStatus (self : Scheduler) (ref : Ref) (status : RequestStatus) : Scheduler :=
  self.setObject ref { self.objects ref with status := status }

def isBlockedWaitingStatus : RequestStatus → Bool
  | .waitingForFsm | .waitingForRemoteKvs | .waitingForStreamingReq => true
  | _ => false

def enqueueWaitingRequest (self : Scheduler) (ref : Ref) : Scheduler :=
  if isBlockedWaitingStatus (self.objects ref).status then
    { self with skippedWaiting := self.skippedWaiting.addRequest self.objects ref }
  else { self with waiting := self.waiting.addRequest self.objects ref }

/-- `_update_request_as_session`, as far as the queues can tell. -/
def updateRequestAsSession (self : Scheduler) (ref : Ref) (arrivalTime : Int) : Scheduler :=
  self.setObject ref { self.objects ref with arrivalTime := arrivalTime, status := .waiting }

/-- Only running requests are preempted. -/
def preemptRequest (self : Scheduler) (ref : Ref) : Option Scheduler :=
  if (self.objects ref).status = .running then
    let self := self.setStatus ref .preempted
    some { self with waiting := self.waiting.prependRequest self.objects ref }
  else none

/-- `removeRequests` on a queue if there is anything to remove. -/
def removeFrom (self : Scheduler) (queue : PriorityRequestQueue) (refs : List Ref) : PriorityRequestQueue :=
  if refs = [] then queue else queue.removeRequests self.objects refs

def finishRequests (self : Scheduler) (requestIds : List ReqId) (finishedStatus : RequestStatus) :
    Scheduler :=
  let validRequests := requestIds.filterMap fun requestId =>
    (self.requests.get? requestId).filter fun ref => !(self.objects ref).status.isFinished
  let toRemove := validRequests.filter fun ref => !decide ((self.objects ref).status = .running)
  { objects := fun ref =>
      if validRequests.contains ref then { self.objects ref with status := finishedStatus }
      else self.objects ref
    requests := validRequests.foldl (fun requests ref => requests.erase (self.objects ref).requestId)
      self.requests
    running := self.running.filter fun ref => !validRequests.contains ref
    waiting := self.removeFrom self.waiting toRemove
    skippedWaiting := self.removeFrom self.skippedWaiting toRemove
    stepSkippedWaiting := self.stepSkippedWaiting }

/-- A request with a known id is the next chunk of that session, or its end if it is not
resumable. There is no result when the id is a duplicate, or the object is in use. -/
def addRequest (self : Scheduler) (ref : Ref) (request : QueuedRequest) : Option Scheduler :=
  match self.requests.get? request.requestId with
  | some existing =>
    let update := if request.resumable then some request.arrivalTime else none
    let session := self.objects existing
    if session.status ≠ .waitingForStreamingReq then
      session.streamingQueue.map fun queue =>
        self.setObject existing { session with streamingQueue := some (queue ++ [update]) }
    else
      match update with
      | some arrivalTime => some (self.updateRequestAsSession existing arrivalTime)
      | none => some (self.finishRequests [request.requestId] .finishedAborted)
  | none =>
    if ref ∈ self.waiting.heap ++ self.skippedWaiting.heap ++ self.running ++ self.requests.values then none
    else
      let request := if request.resumable then { request with streamingQueue := some [] } else request
      let self := (self.setObject ref request).enqueueWaitingRequest ref
      some { self with requests := self.requests.set request.requestId ref }

inductive QueueName
  | waiting
  | skippedWaiting

def queue (self : Scheduler) : QueueName → PriorityRequestQueue
  | .waiting => self.waiting
  | .skippedWaiting => self.skippedWaiting

def setQueue (self : Scheduler) (name : QueueName) (queue : PriorityRequestQueue) : Scheduler :=
  match name with
  | .waiting => { self with waiting := queue }
  | .skippedWaiting => { self with skippedWaiting := queue }

def selectWaitingQueueForScheduling (self : Scheduler) : Option QueueName :=
  match self.waiting.peekRequest, self.skippedWaiting.peekRequest with
  | some waitingReq, some skippedReq =>
    some (if requestLt self.objects waitingReq skippedReq then .waiting else .skippedWaiting)
  | some _, none => some .waiting
  | none, some _ => some .skippedWaiting
  | none, none => none

/-- What becomes of the request at the head of the selected queue. -/
inductive Fate
  | leave
  | skip
  | run
  | loadAsync

/-- `_try_promote_blocked_waiting_request` where the status is blocked; there is no result
when it stays so. A request that waits for its next chunk always does. -/
def tryPromote (self : Scheduler) (ref : Ref) (promotion : Option RequestStatus) : Option Scheduler :=
  let status := (self.objects ref).status
  if !isBlockedWaitingStatus status then some self
  else if status = .waitingForStreamingReq then none
  else promotion.map fun status => self.setStatus ref status

/-- The popped request goes to the step queue. -/
def requeue (self : Scheduler) (name : QueueName) (rest stepSkipped : PriorityRequestQueue) (ref : Ref) :
    Scheduler :=
  { self.setQueue name rest with
    stepSkippedWaiting := some (stepSkipped.prependRequest self.objects ref) }

/-- One round over the waiting requests. -/
def scheduleNext (self : Scheduler) (promotion : Option RequestStatus) (fate : Fate) : Option Scheduler := do
  let stepSkipped ← self.stepSkippedWaiting
  let name ← self.selectWaitingQueueForScheduling
  let popped ← (self.queue name).popRequest self.objects
  match self.tryPromote popped.1 promotion with
  | none => some (self.requeue name popped.2 stepSkipped popped.1)
  | some self =>
    match fate with
    | .leave => some self
    | .skip => some (self.requeue name popped.2 stepSkipped popped.1)
    | .loadAsync =>
      some ((self.setStatus popped.1 .waitingForRemoteKvs).requeue name popped.2 stepSkipped popped.1)
    | .run =>
      let status := (self.objects popped.1).status
      if status = .waiting ∨ status = .preempted then
        let self := (self.setQueue name popped.2).setStatus popped.1 .running
        some { self with running := self.running ++ [popped.1] }
      else none

/-- The end of the loop over the waiting requests. -/
def endWaiting (self : Scheduler) : Option Scheduler :=
  self.stepSkippedWaiting.map fun stepSkipped =>
    { self with
      skippedWaiting := self.skippedWaiting.prependRequests self.objects stepSkipped
      stepSkippedWaiting := none }

/-- `_handle_stopped_request`; the result also says whether the request is finished. -/
def handleStoppedRequest (self : Scheduler) (ref : Ref) : Bool × Scheduler :=
  let request := self.objects ref
  if !request.resumable then (true, self)
  else
    match request.streamingQueue with
    | some (update :: rest) =>
      let taken := self.setObject ref { request with streamingQueue := some rest }
      match update with
      | none => (true, taken)
      | some arrivalTime =>
        (false, (taken.updateRequestAsSession ref arrivalTime).enqueueWaitingRequest ref)
    | _ => (false, (self.setStatus ref .waitingForStreamingReq).enqueueWaitingRequest ref)

/-- A request that stops with its output. There is no result for one that is skipped
because it is unknown or finished already. -/
def stopRequest (self : Scheduler) (requestId : ReqId) (finishedStatus : RequestStatus) :
    Option (Ref × Scheduler) :=
  match self.requests.get? requestId with
  | none => none
  | some ref =>
    if (self.objects ref).status.isFinished then none
    else
      let (finished, self) := (self.setStatus ref finishedStatus).handleStoppedRequest ref
      some (ref, if finished then { self with requests := self.requests.erase requestId } else self)

/-- The loop over the outputs, for the requests that stop. The stopped requests are
collected by whether they were running. -/
def stopRequests (self : Scheduler) (stoppedRunning stoppedPreempted : List Ref) :
    List (ReqId × RequestStatus) → Scheduler × List Ref × List Ref
  | [] => (self, stoppedRunning, stoppedPreempted)
  | (requestId, finishedStatus) :: rest =>
    match self.stopRequest requestId finishedStatus with
    | none => stopRequests self stoppedRunning stoppedPreempted rest
    | some (ref, next) =>
      if (self.objects ref).status = .running then
        stopRequests next (stoppedRunning ++ [ref]) stoppedPreempted rest
      else stopRequests next stoppedRunning (stoppedPreempted ++ [ref]) rest

def updateFromOutput (self : Scheduler) (stops : List (ReqId × RequestStatus)) : Scheduler :=
  let (self, stoppedRunning, stoppedPreempted) := self.stopRequests [] [] stops
  { self with
    running := self.running.filter fun ref => !stoppedRunning.contains ref
    waiting := self.removeFrom self.waiting stoppedPreempted }

/-- `reset_prefix_cache` preempts the running requests from the last one on. -/
def preemptAll (self : Scheduler) : List Ref → Option Scheduler
  | [] => some { self with running := [] }
  | ref :: rest => (self.preemptRequest ref).bind fun self => preemptAll self rest

end Scheduler

inductive Step
  | addRequest (ref : Ref) (request : QueuedRequest)
  | preempt (ref : Ref)
  | startWaiting
  | scheduleNext (promotion : Option RequestStatus) (fate : Scheduler.Fate)
  | endWaiting
  | updateFromOutput (stops : List (ReqId × RequestStatus))
  | finishRequests (requestIds : List ReqId) (finishedStatus : RequestStatus)
  | resetPrefixCache

/-- There is no result when the step is not possible or raises. -/
def step (scheduler : Scheduler) : Step → Option Scheduler
  | .addRequest ref request =>
    if scheduler.stepSkippedWaiting.isSome then none else scheduler.addRequest ref request
  | .preempt ref =>
    if ref ∈ scheduler.running then
      Scheduler.preemptRequest { scheduler with running := scheduler.running.erase ref } ref
    else none
  | .startWaiting =>
    if scheduler.stepSkippedWaiting.isSome then none
    else some { scheduler with stepSkippedWaiting := some .empty }
  | .scheduleNext promotion fate => scheduler.scheduleNext promotion fate
  | .endWaiting => scheduler.endWaiting
  | .updateFromOutput stops =>
    if scheduler.stepSkippedWaiting.isSome then none else some (scheduler.updateFromOutput stops)
  | .finishRequests requestIds finishedStatus =>
    if scheduler.stepSkippedWaiting.isSome then none
    else some (scheduler.finishRequests requestIds finishedStatus)
  | .resetPrefixCache =>
    if scheduler.stepSkippedWaiting.isSome then none
    else scheduler.preemptAll scheduler.running.reverse

end VllmDcu.PriorityScheduling

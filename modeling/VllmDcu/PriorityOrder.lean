import VllmDcu.PriorityScheduling

/-! The queues stay in order over whole runs, as long as no session gets an arrival time
that does not fit its place in a queue. -/
namespace VllmDcu.PriorityOrder
open Requests HeapQueue PriorityQueues PriorityScheduling List Option

section Queues
variable {objects : Objects} {queue : PriorityRequestQueue}

def InOrder (objects : Objects) (queue : PriorityRequestQueue) : Prop :=
  Ordered (requestLt objects) queue.heap

theorem empty_inOrder {objects : Objects} : InOrder objects .empty := by
  intro i _ _ a member
  cases member

theorem addRequest_inOrder (ordered : InOrder objects queue) {request : Ref} :
    InOrder objects (queue.addRequest objects request) :=
  (heappush_spec (requestLt_order objects) ordered request).1

theorem removeRequests_inOrder {objects : Objects} {queue : PriorityRequestQueue} {requests : List Ref} :
    InOrder objects (queue.removeRequests objects requests) :=
  (heapify_spec (requestLt_order objects) _).1

theorem popRequest_inOrder (ordered : InOrder objects queue) {first : Ref} {rest : PriorityRequestQueue}
    (popped : queue.popRequest objects = some (first, rest)) : InOrder objects rest := by
  rw [PriorityRequestQueue.popRequest] at popped
  cases listed : queue.heap with
  | nil =>
    rw [listed] at popped
    cases popped
  | cons head tail =>
    obtain ⟨rest', found, ordered', _⟩ := heappop_spec (requestLt_order objects) ordered listed
    rw [found] at popped
    cases popped
    exact ordered'

theorem prependRequests_inOrder (ordered : InOrder objects queue) (requests : PriorityRequestQueue) :
    InOrder objects (queue.prependRequests objects requests) := by
  rw [PriorityRequestQueue.prependRequests]
  induction requests.iterate objects generalizing queue with
  | nil => exact ordered
  | cons request rest ih => exact ih (addRequest_inOrder ordered)

end Queues

section Objects
variable {scheduler : Scheduler} {queue : PriorityRequestQueue}

section
variable (ordered : InOrder scheduler.objects queue)
include ordered

/-- Setting an object without changing the fields that order it. -/
theorem setObject_inOrder {ref : Ref} {request : QueuedRequest}
    (same : key request = key (scheduler.objects ref)) :
    InOrder (scheduler.setObject ref request).objects queue := by
  apply ordered_congr _ ordered
  intro other _
  by_cases own : other = ref
  · rw [own, Scheduler.setObject_self]
    exact same
  · rw [Scheduler.setObject_other _ own]

theorem setStatus_inOrder {ref : Ref} {status : RequestStatus} :
    InOrder (scheduler.setStatus ref status).objects queue :=
  setObject_inOrder ordered rfl

/-- Setting an object that is not in the queue. -/
theorem setObject_absent {ref : Ref} (absent : ref ∉ queue.heap) (request : QueuedRequest) :
    InOrder (scheduler.setObject ref request).objects queue := by
  apply ordered_congr _ ordered
  intro other member
  have differs : other ≠ ref := fun own => absent (own ▸ member)
  rw [Scheduler.setObject_other _ differs]

end

/-- The new arrival time keeps the session in its place in the queue. -/
def Fits (scheduler : Scheduler) (ref : Ref) (arrivalTime : Int) (queue : PriorityRequestQueue) : Prop :=
  KeepsPlace (scheduler.updateRequestAsSession ref arrivalTime).objects ref queue.heap

theorem updateRequestAsSession_inOrder (ordered : InOrder scheduler.objects queue) {ref : Ref}
    {arrivalTime : Int} (fits : Fits scheduler ref arrivalTime queue) :
    InOrder (scheduler.updateRequestAsSession ref arrivalTime).objects queue := by
  apply ordered_update _ fits ordered
  intro other differs
  rw [Scheduler.updateRequestAsSession, Scheduler.setObject_other _ differs]

end Objects

structure Sound (scheduler : Scheduler) : Prop where
  waiting : InOrder scheduler.objects scheduler.waiting
  skipped : InOrder scheduler.objects scheduler.skippedWaiting
  step : ∀ queue ∈ scheduler.stepSkippedWaiting, InOrder scheduler.objects queue

section Operations
variable {scheduler next : Scheduler}

theorem Sound.setStatus (sound : Sound scheduler) (ref : Ref) (status : RequestStatus) :
    Sound (scheduler.setStatus ref status) :=
  ⟨setStatus_inOrder sound.waiting, setStatus_inOrder sound.skipped,
    fun queue member => setStatus_inOrder (sound.step queue member)⟩

theorem enqueueWaitingRequest_inOrder (name : Scheduler.QueueName)
    (ordered : InOrder scheduler.objects (scheduler.queue name)) (ref : Ref) :
    InOrder (scheduler.enqueueWaitingRequest ref).objects
      ((scheduler.enqueueWaitingRequest ref).queue name) := by
  rw [Scheduler.enqueueWaitingRequest]
  cases name with
  | waiting =>
    split
    · exact ordered
    · exact addRequest_inOrder ordered
  | skippedWaiting =>
    split
    · exact addRequest_inOrder ordered
    · exact ordered

theorem enqueueWaitingRequest_step (scheduler : Scheduler) (ref : Ref) :
    (scheduler.enqueueWaitingRequest ref).stepSkippedWaiting = scheduler.stepSkippedWaiting := by
  rw [Scheduler.enqueueWaitingRequest]
  split <;> rfl

theorem preemptRequest_sound (sound : Sound scheduler) {ref : Ref}
    (ran : scheduler.preemptRequest ref = some next) : Sound next := by
  rw [Scheduler.preemptRequest] at ran
  split at ran
  · cases ran
    have changed := sound.setStatus ref .preempted
    exact ⟨addRequest_inOrder changed.waiting, changed.skipped, changed.step⟩
  · cases ran

theorem preemptAll_sound (refs : List Ref) (sound : Sound scheduler)
    (ran : scheduler.preemptAll refs = some next) : Sound next := by
  induction refs generalizing scheduler with
  | nil =>
    cases ran
    exact ⟨sound.waiting, sound.skipped, sound.step⟩
  | cons ref rest ih =>
    obtain ⟨middle, first, ran⟩ := bind_eq_some_iff.mp ran
    exact ih (preemptRequest_sound sound first) ran

theorem removeFrom_inOrder {objects : Objects} {queue : PriorityRequestQueue}
    (same : scheduler.objects = objects) (refs : List Ref) (ordered : refs = [] → InOrder objects queue) :
    InOrder objects (scheduler.removeFrom queue refs) := by
  rw [Scheduler.removeFrom]
  split
  · rename_i none
    exact ordered none
  · rw [same]
    exact removeRequests_inOrder

section
variable (sound : Sound scheduler)
include sound

theorem finishRequests_sound {requestIds : List ReqId}
    {finishedStatus : RequestStatus} : Sound (scheduler.finishRequests requestIds finishedStatus) := by
  -- Only the status of an object changes.
  have changed {queue : PriorityRequestQueue} (ordered : InOrder scheduler.objects queue) :
      InOrder (scheduler.finishRequests requestIds finishedStatus).objects queue := by
    apply ordered_congr _ ordered
    intro other _
    rw [Scheduler.finishRequests]
    dsimp only
    split <;> rfl
  constructor
  · exact changed (removeFrom_inOrder rfl _ fun _ => sound.waiting)
  · exact changed (removeFrom_inOrder rfl _ fun _ => sound.skipped)
  · exact fun queue member => changed (sound.step queue member)

theorem endWaiting_sound (ran : scheduler.endWaiting = some next) : Sound next := by
  obtain ⟨stepSkipped, active, same⟩ := map_eq_some_iff.mp ran
  cases same
  exact ⟨sound.waiting, prependRequests_inOrder sound.skipped stepSkipped, fun _ none => (by cases none)⟩

theorem setQueue_sound (name : Scheduler.QueueName) {queue : PriorityRequestQueue}
    (ordered : InOrder scheduler.objects queue) : Sound (scheduler.setQueue name queue) := by
  cases name with
  | waiting => exact ⟨ordered, sound.skipped, sound.step⟩
  | skippedWaiting => exact ⟨sound.waiting, ordered, sound.step⟩

theorem Sound.queue (name : Scheduler.QueueName) :
    InOrder scheduler.objects (scheduler.queue name) := by
  cases name with
  | waiting => exact sound.waiting
  | skippedWaiting => exact sound.skipped

theorem requeue_sound {name : Scheduler.QueueName}
    {rest stepSkipped : PriorityRequestQueue} (ordered : InOrder scheduler.objects rest)
    (ordered' : InOrder scheduler.objects stepSkipped) {ref : Ref} :
    Sound (scheduler.requeue name rest stepSkipped ref) := by
  have same : (scheduler.setQueue name rest).objects = scheduler.objects := by cases name <;> rfl
  obtain ⟨waiting, skipped, _⟩ := setQueue_sound sound name ordered
  refine ⟨waiting, skipped, fun queue member => ?_⟩
  cases member
  rw [Scheduler.requeue]
  rw [same]
  exact addRequest_inOrder ordered'

end

/-- A promotion changes the status only. -/
theorem tryPromote_cases {ref : Ref} {promotion : Option RequestStatus}
    (ran : scheduler.tryPromote ref promotion = some next) :
    next = scheduler ∨ ∃ status, next = scheduler.setStatus ref status := by
  rw [Scheduler.tryPromote] at ran
  split at ran
  · cases ran
    exact Or.inl rfl
  · split at ran
    · cases ran
    · obtain ⟨status, _, same⟩ := map_eq_some_iff.mp ran
      exact Or.inr ⟨status, same.symm⟩

theorem scheduleNext_sound (sound : Sound scheduler) {promotion : Option RequestStatus}
    {fate : Scheduler.Fate} (ran : scheduler.scheduleNext promotion fate = some next) : Sound next := by
  obtain ⟨stepSkipped, active, ran⟩ := bind_eq_some_iff.mp ran
  obtain ⟨name, selected, ran⟩ := bind_eq_some_iff.mp ran
  obtain ⟨⟨ref, rest⟩, popped, ran⟩ := bind_eq_some_iff.mp ran
  have ordered := popRequest_inOrder (sound.queue name) popped
  have ordered' := sound.step stepSkipped active
  cases chosen : scheduler.tryPromote ref promotion with
  | none =>
    rw [chosen] at ran
    cases ran
    exact requeue_sound sound ordered ordered'
  | some promoted =>
    rw [chosen] at ran
    have facts : Sound promoted ∧ InOrder promoted.objects rest ∧ InOrder promoted.objects stepSkipped := by
      rcases tryPromote_cases chosen with rfl | ⟨status, rfl⟩
      · exact ⟨sound, ordered, ordered'⟩
      · exact ⟨sound.setStatus ref status, setStatus_inOrder ordered, setStatus_inOrder ordered'⟩
    obtain ⟨sound, ordered, ordered'⟩ := facts
    cases fate with
    | leave =>
      cases ran
      exact sound
    | skip =>
      cases ran
      exact requeue_sound sound ordered ordered'
    | loadAsync =>
      cases ran
      exact requeue_sound (sound.setStatus ref _) (setStatus_inOrder ordered)
        (setStatus_inOrder ordered')
    | run =>
      dsimp only at ran
      split at ran
      · cases ran
        have changed := (setQueue_sound sound name ordered).setStatus ref .running
        exact ⟨changed.waiting, changed.skipped, changed.step⟩
      · cases ran

end Operations

section Sessions
variable {scheduler next : Scheduler}

/-- A chunk for a session that waits for it is written into the queued object. -/
def ChunkFits (scheduler : Scheduler) (request : QueuedRequest) : Prop :=
  ∀ existing ∈ scheduler.requests.get? request.requestId,
    (scheduler.objects existing).status = .waitingForStreamingReq → request.resumable = true →
      Fits scheduler existing request.arrivalTime scheduler.waiting ∧
        Fits scheduler existing request.arrivalTime scheduler.skippedWaiting

theorem addRequest_sound (sound : Sound scheduler) (resting : scheduler.stepSkippedWaiting = none)
    {ref : Ref} {request : QueuedRequest} (fits : ChunkFits scheduler request)
    (ran : scheduler.addRequest ref request = some next) : Sound next := by
  rw [Scheduler.addRequest] at ran
  cases known : scheduler.requests.get? request.requestId with
  | none =>
    rw [known] at ran
    dsimp only at ran
    split at ran
    · cases ran
    · rename_i fresh
      cases ran
      simp only [mem_append, not_or] at fresh
      have placed (request : QueuedRequest) : Sound (scheduler.setObject ref request) := by
        refine ⟨setObject_absent sound.waiting fresh.1.1.1 request,
          setObject_absent sound.skipped fresh.1.1.2 request, fun queue member => ?_⟩
        have member : queue ∈ scheduler.stepSkippedWaiting := member
        rw [resting] at member
        cases member
      have ready := placed (if request.resumable then { request with streamingQueue := some [] } else request)
      refine ⟨enqueueWaitingRequest_inOrder .waiting ready.waiting ref,
        enqueueWaitingRequest_inOrder .skippedWaiting ready.skipped ref, fun queue member => ?_⟩
      rw [enqueueWaitingRequest_step] at member
      have member : queue ∈ scheduler.stepSkippedWaiting := member
      rw [resting] at member
      cases member
  | some existing =>
    rw [known] at ran
    dsimp only at ran
    split at ran
    · obtain ⟨queue, _, same⟩ := map_eq_some_iff.mp ran
      cases same
      exact ⟨setObject_inOrder sound.waiting rfl, setObject_inOrder sound.skipped rfl,
        fun queue member => setObject_inOrder (sound.step queue member) rfl⟩
    · rename_i status
      rw [not_not] at status
      by_cases resumable : request.resumable = true
      · rw [if_pos resumable] at ran
        cases ran
        obtain ⟨waiting, skipped⟩ := fits existing known status resumable
        refine ⟨updateRequestAsSession_inOrder sound.waiting waiting,
          updateRequestAsSession_inOrder sound.skipped skipped, fun queue member => ?_⟩
        have member : queue ∈ scheduler.stepSkippedWaiting := member
        rw [resting] at member
        cases member
      · rw [if_neg resumable] at ran
        cases ran
        exact finishRequests_sound sound

/-- The arrival time of the update that a stopped session takes. -/
def takenUpdate (request : QueuedRequest) : Option Int :=
  if request.resumable then
    match request.streamingQueue with
    | some (some arrivalTime :: _) => some arrivalTime
    | _ => none
  else none

theorem keepsPlace_congr {objects objects' : Objects} {ref : Ref} {heap : List Ref}
    (same : ∀ other, key (objects' other) = key (objects other)) (keeps : KeepsPlace objects ref heap) :
    KeepsPlace objects' ref heap := by
  intro i within positive own a memberA b memberB
  rw [requestLt_congr (same b) (same a)]
  exact keeps i within positive own a memberA b memberB

theorem setObject_key {ref : Ref} {request : QueuedRequest}
    (same : key request = key (scheduler.objects ref)) (other : Ref) :
    key ((scheduler.setObject ref request).objects other) = key (scheduler.objects other) := by
  by_cases own : other = ref
  · rw [own, Scheduler.setObject_self, same]
  · rw [Scheduler.setObject_other _ own]

/-- Whether an arrival time fits does not depend on the other fields of the objects. -/
theorem Fits.congr {ref : Ref} {arrivalTime : Int} {queue : PriorityRequestQueue}
    (same : ∀ other, key (next.objects other) = key (scheduler.objects other))
    (fits : Fits scheduler ref arrivalTime queue) : Fits next ref arrivalTime queue := by
  apply keepsPlace_congr _ fits
  intro other
  rw [Scheduler.updateRequestAsSession, Scheduler.updateRequestAsSession]
  by_cases own : other = ref
  · have same := same ref
    rw [own, Scheduler.setObject_self, Scheduler.setObject_self]
    simp only [key, Prod.mk.injEq] at same ⊢
    exact ⟨same.1, trivial, same.2.2⟩
  · rw [Scheduler.setObject_other _ own, Scheduler.setObject_other _ own]
    exact same other

theorem handleStoppedRequest_inOrder (name : Scheduler.QueueName) {ref : Ref}
    (ordered : InOrder scheduler.objects (scheduler.queue name))
    (fits : ∀ arrivalTime ∈ takenUpdate (scheduler.objects ref),
      Fits scheduler ref arrivalTime (scheduler.queue name)) :
    InOrder (scheduler.handleStoppedRequest ref).2.objects
      ((scheduler.handleStoppedRequest ref).2.queue name) := by
  have kept (next : Scheduler) (same : next.queue name = scheduler.queue name)
      (keys : ∀ other, key (next.objects other) = key (scheduler.objects other)) :
      InOrder next.objects (next.queue name) := by
    rw [same]
    exact ordered_congr (fun other _ => keys other) ordered
  rw [Scheduler.handleStoppedRequest]
  split
  · exact ordered
  · rename_i resumable
    split
    · rename_i update rest queued
      cases update with
      | none => exact kept _ (by cases name <;> rfl) (setObject_key (by rfl))
      | some arrivalTime =>
        apply enqueueWaitingRequest_inOrder
        have taken : takenUpdate (scheduler.objects ref) = some arrivalTime := by
          rw [takenUpdate, if_pos (by simpa using resumable), queued]
        apply updateRequestAsSession_inOrder
        · exact ordered_congr (fun other _ => setObject_key (by rfl) other) ordered
        · exact (fits arrivalTime taken).congr (setObject_key (by rfl))
    · apply enqueueWaitingRequest_inOrder
      exact kept _ (by cases name <;> rfl) (setObject_key (by rfl))

theorem handleStoppedRequest_step (scheduler : Scheduler) (ref : Ref) :
    (scheduler.handleStoppedRequest ref).2.stepSkippedWaiting = scheduler.stepSkippedWaiting := by
  rw [Scheduler.handleStoppedRequest]
  split
  · rfl
  · split
    · split
      · rfl
      · exact enqueueWaitingRequest_step _ ref
    · exact enqueueWaitingRequest_step _ ref

theorem stopRequest_inOrder (name : Scheduler.QueueName) {requestId : ReqId}
    {finishedStatus : RequestStatus} {ref : Ref}
    (ran : scheduler.stopRequest requestId finishedStatus = some (ref, next))
    (ordered : InOrder scheduler.objects (scheduler.queue name))
    (fits : ∀ arrivalTime ∈ takenUpdate (scheduler.objects ref),
      Fits scheduler ref arrivalTime (scheduler.queue name)) :
    InOrder next.objects (next.queue name) := by
  rw [Scheduler.stopRequest] at ran
  cases known : scheduler.requests.get? requestId with
  | none =>
    rw [known] at ran
    cases ran
  | some found =>
    rw [known] at ran
    dsimp only at ran
    split at ran
    · cases ran
    · cases ran
      have handled : InOrder
          ((scheduler.setStatus ref finishedStatus).handleStoppedRequest ref).2.objects
          (((scheduler.setStatus ref finishedStatus).handleStoppedRequest ref).2.queue name) := by
        apply handleStoppedRequest_inOrder
        · exact setStatus_inOrder ordered
        · intro arrivalTime taken
          rw [Scheduler.setStatus, Scheduler.setObject_self] at taken
          exact (fits arrivalTime taken).congr (setObject_key (by rfl))
      split
      · cases name <;> exact handled
      · exact handled

theorem stopRequest_step {requestId : ReqId} {finishedStatus : RequestStatus} {ref : Ref}
    (ran : scheduler.stopRequest requestId finishedStatus = some (ref, next)) :
    next.stepSkippedWaiting = scheduler.stepSkippedWaiting := by
  rw [Scheduler.stopRequest] at ran
  split at ran
  · cases ran
  · dsimp only at ran
    split at ran
    · cases ran
    · cases ran
      split <;> exact handleStoppedRequest_step _ ref

/-- The updates that stopped sessions take fit the places they have in the queues. The
waiting queue is rebuilt at the end if a request stops that is not running. -/
def StopsFit (scheduler : Scheduler) : List (ReqId × RequestStatus) → Prop
  | [] => True
  | (requestId, finishedStatus) :: rest =>
    match scheduler.stopRequest requestId finishedStatus with
    | none => StopsFit scheduler rest
    | some (ref, next) =>
      (∀ arrivalTime ∈ takenUpdate (scheduler.objects ref),
        Fits scheduler ref arrivalTime scheduler.skippedWaiting ∧
          ((scheduler.objects ref).status = .running →
            Fits scheduler ref arrivalTime scheduler.waiting)) ∧
      StopsFit next rest

theorem stopRequests_inOrder (stops : List (ReqId × RequestStatus)) (stoppedRunning stoppedPreempted : List Ref)
    (skipped : InOrder scheduler.objects scheduler.skippedWaiting)
    (waiting : stoppedPreempted = [] → InOrder scheduler.objects scheduler.waiting)
    (fits : StopsFit scheduler stops) :
    InOrder (scheduler.stopRequests stoppedRunning stoppedPreempted stops).1.objects
        (scheduler.stopRequests stoppedRunning stoppedPreempted stops).1.skippedWaiting ∧
      ((scheduler.stopRequests stoppedRunning stoppedPreempted stops).2.2 = [] →
        InOrder (scheduler.stopRequests stoppedRunning stoppedPreempted stops).1.objects
          (scheduler.stopRequests stoppedRunning stoppedPreempted stops).1.waiting) ∧
      (scheduler.stopRequests stoppedRunning stoppedPreempted stops).1.stepSkippedWaiting =
        scheduler.stepSkippedWaiting := by
  induction stops generalizing scheduler stoppedRunning stoppedPreempted with
  | nil => exact ⟨skipped, waiting, rfl⟩
  | cons stop rest ih =>
    obtain ⟨requestId, finishedStatus⟩ := stop
    rw [StopsFit] at fits
    rw [Scheduler.stopRequests]
    cases ran : scheduler.stopRequest requestId finishedStatus with
    | none =>
      rw [ran] at fits
      exact ih _ _ skipped waiting fits
    | some stopped =>
      obtain ⟨ref, next⟩ := stopped
      rw [ran] at fits
      obtain ⟨own, later⟩ := fits
      have skipped' : InOrder next.objects next.skippedWaiting :=
        stopRequest_inOrder .skippedWaiting ran skipped fun arrivalTime taken => (own arrivalTime taken).1
      have same := stopRequest_step ran
      dsimp only
      rw [← same]
      split
      · rename_i active
        refine ih _ _ skipped' (fun none => ?_) later
        exact stopRequest_inOrder .waiting ran (waiting none)
          fun arrivalTime taken => (own arrivalTime taken).2 active
      · exact ih _ _ skipped' (fun none => absurd none (by simp)) later

theorem updateFromOutput_sound (sound : Sound scheduler) (resting : scheduler.stepSkippedWaiting = none)
    {stops : List (ReqId × RequestStatus)} (fits : StopsFit scheduler stops) : Sound (scheduler.updateFromOutput stops) := by
  obtain ⟨skipped, waiting, same⟩ :=
    stopRequests_inOrder stops [] [] sound.skipped (fun _ => sound.waiting) fits
  constructor
  · exact removeFrom_inOrder rfl _ waiting
  · exact skipped
  · intro queue member
    have member : queue ∈ (scheduler.stopRequests [] [] stops).1.stepSkippedWaiting := member
    rw [same, resting] at member
    cases member

end Sessions

section Runs

/-- No step changes the order of a queue by writing a new arrival time into it. -/
def KeepsOrder (scheduler : Scheduler) : Step → Prop
  | .addRequest _ request => ChunkFits scheduler request
  | .updateFromOutput stops => StopsFit scheduler stops
  | .preempt _ | .startWaiting | .scheduleNext _ _ | .endWaiting | .finishRequests _ _
  | .resetPrefixCache => True

theorem step_sound {scheduler next : Scheduler} (sound : Sound scheduler) (taken : Step)
    (keeps : KeepsOrder scheduler taken) (ran : step scheduler taken = some next) : Sound next := by
  cases taken with
  | addRequest ref request =>
    rw [step] at ran
    split at ran
    · cases ran
    · rename_i resting
      exact addRequest_sound sound (by simpa using resting) keeps ran
  | preempt ref =>
    rw [step] at ran
    split at ran
    · have popped : Sound { scheduler with running := scheduler.running.erase ref } :=
        ⟨sound.waiting, sound.skipped, sound.step⟩
      exact preemptRequest_sound popped ran
    · cases ran
  | startWaiting =>
    rw [step] at ran
    split at ran
    · cases ran
    · cases ran
      refine ⟨sound.waiting, sound.skipped, fun queue member => ?_⟩
      cases member
      exact empty_inOrder
  | scheduleNext promotion fate => exact scheduleNext_sound sound ran
  | endWaiting => exact endWaiting_sound sound ran
  | updateFromOutput stops =>
    rw [step] at ran
    split at ran
    · cases ran
    · rename_i resting
      cases ran
      exact updateFromOutput_sound sound (by simpa using resting) keeps
  | finishRequests requestIds finishedStatus =>
    rw [step] at ran
    split at ran
    · cases ran
    · cases ran
      exact finishRequests_sound sound
  | resetPrefixCache =>
    rw [step] at ran
    split at ran
    · cases ran
    · exact preemptAll_sound _ sound ran

/-- The states that the scheduler reaches by allowed steps. -/
inductive Reachable (allowed : Scheduler → Step → Prop) : Scheduler → Prop
  | init (objects : Objects) : Reachable allowed (.init objects)
  | step {scheduler next : Scheduler} {taken : Step} (reached : Reachable allowed scheduler)
      (permitted : allowed scheduler taken) (ran : step scheduler taken = some next) :
      Reachable allowed next

theorem init_sound (objects : Objects) : Sound (.init objects) :=
  ⟨empty_inOrder, empty_inOrder, fun _ none => (by cases none)⟩

theorem reachable_sound {scheduler : Scheduler} (reached : Reachable KeepsOrder scheduler) :
    Sound scheduler := by
  induction reached with
  | init objects => exact init_sound objects
  | step _ permitted ran ih => exact step_sound ih _ permitted ran

/-- The queues give the requests in the order that their fields have at that moment. -/
theorem reachable_serves (scheduler : Scheduler) (reached : Reachable KeepsOrder scheduler)
    (queue : PriorityRequestQueue)
    (listed : queue ∈ scheduler.waiting :: scheduler.skippedWaiting ::
      scheduler.stepSkippedWaiting.toList) : Serves scheduler.objects queue := by
  have sound := reachable_sound reached
  apply ordered_serves
  rcases mem_cons.mp listed with rfl | listed
  · exact sound.waiting
  · rcases mem_cons.mp listed with rfl | listed
    · exact sound.skipped
    · exact sound.step queue (mem_toList.mp listed)

instance (less : Ref → Ref → Bool) (heap : List Ref) (i j : Nat) : Decidable (Before less heap i j) :=
  inferInstanceAs (Decidable (∀ a ∈ heap[i]?, ∀ b ∈ heap[j]?, less b a = false))

instance (objects : Objects) (ref : Ref) (heap : List Ref) : Decidable (KeepsPlace objects ref heap) :=
  inferInstanceAs (Decidable (∀ i < heap.length, _ → _ → _))

instance (scheduler : Scheduler) (ref : Ref) (arrivalTime : Int) (queue : PriorityRequestQueue) :
    Decidable (Fits scheduler ref arrivalTime queue) := inferInstanceAs (Decidable (KeepsPlace _ _ _))

instance (scheduler : Scheduler) (request : QueuedRequest) : Decidable (ChunkFits scheduler request) :=
  inferInstanceAs (Decidable (∀ existing ∈ scheduler.requests.get? request.requestId, _ → _ → _ ∧ _))

def decideStops : (scheduler : Scheduler) → (stops : List (ReqId × RequestStatus)) →
    Decidable (StopsFit scheduler stops)
  | _, [] => isTrue trivial
  | scheduler, (requestId, finishedStatus) :: rest =>
    match ran : scheduler.stopRequest requestId finishedStatus with
    | none =>
      have := decideStops scheduler rest
      decidable_of_iff (StopsFit scheduler rest) (by rw [StopsFit, ran])
    | some (ref, next) =>
      have := decideStops next rest
      decidable_of_iff ((∀ arrivalTime ∈ takenUpdate (scheduler.objects ref),
        Fits scheduler ref arrivalTime scheduler.skippedWaiting ∧
          ((scheduler.objects ref).status = .running →
            Fits scheduler ref arrivalTime scheduler.waiting)) ∧ StopsFit next rest)
        (by rw [StopsFit, ran])

instance (scheduler : Scheduler) (taken : Step) : Decidable (KeepsOrder scheduler taken) :=
  match taken with
  | .addRequest _ request => inferInstanceAs (Decidable (ChunkFits scheduler request))
  | .updateFromOutput stops => decideStops scheduler stops
  | .preempt _ | .startWaiting | .scheduleNext _ _ | .endWaiting | .finishRequests _ _
  | .resetPrefixCache => inferInstanceAs (Decidable True)

def runSteps (allowed : Scheduler → Step → Prop) [∀ scheduler taken, Decidable (allowed scheduler taken)] :
    Scheduler → List Step → Option Scheduler
  | scheduler, [] => some scheduler
  | scheduler, taken :: rest =>
    if allowed scheduler taken then (step scheduler taken).bind fun next => runSteps allowed next rest
    else none

theorem runSteps_reachable {allowed : Scheduler → Step → Prop}
    [∀ scheduler taken, Decidable (allowed scheduler taken)] {scheduler last : Scheduler}
    (steps : List Step) (reached : Reachable allowed scheduler)
    (ran : runSteps allowed scheduler steps = some last) : Reachable allowed last := by
  induction steps generalizing scheduler with
  | nil =>
    cases ran
    exact reached
  | cons taken rest ih =>
    rw [runSteps] at ran
    split at ran
    · rename_i permitted
      obtain ⟨next, first, later⟩ := bind_eq_some_iff.mp ran
      exact ih (.step reached permitted first) later
    · cases ran

def chunk (requestId : ReqId) (arrivalTime : Int) : QueuedRequest :=
  ⟨requestId, 0, arrivalTime, .waiting, true, none⟩

/-- Two sessions have computed their first chunks and wait; then the next chunk of the
one at the head of the queue arrives. -/
def sessionSteps (arrivalTime : Int) : List Step :=
  [.addRequest 10 (chunk 1 1), .addRequest 20 (chunk 2 2), .startWaiting, .scheduleNext none .run,
    .scheduleNext none .run, .endWaiting,
    .updateFromOutput [(1, .finishedStopped), (2, .finishedStopped)], .addRequest 30 (chunk 1 arrivalTime)]

def noObjects : Objects := fun _ => chunk 0 0

theorem earlyChunk_runs : (runSteps KeepsOrder (.init noObjects) (sessionSteps 2)).isSome = true := by
  decide +kernel

theorem lateChunk_runs : (runSteps (fun _ _ => True) (.init noObjects) (sessionSteps 5)).isSome = true := by
  decide +kernel

def earlyChunk : Scheduler := (runSteps KeepsOrder (.init noObjects) (sessionSteps 2)).get earlyChunk_runs

def lateChunk : Scheduler :=
  (runSteps (fun _ _ => True) (.init noObjects) (sessionSteps 5)).get lateChunk_runs

theorem earlyChunk_serves : Serves earlyChunk.objects earlyChunk.skippedWaiting :=
  reachable_serves earlyChunk
    (runSteps_reachable (sessionSteps 2) (.init noObjects) (some_get earlyChunk_runs).symm)
    earlyChunk.skippedWaiting (by simp)

/-- The session whose chunk arrived last is still at the head of the queue. -/
theorem lateChunk_misplaced : Reachable (fun _ _ => True) lateChunk ∧
    ¬ Serves lateChunk.objects lateChunk.skippedWaiting := by
  constructor
  · exact runSteps_reachable _ (.init noObjects) (some_get lateChunk_runs).symm
  · intro serves
    have front : lateChunk.skippedWaiting.peekRequest = some 10 := by decide +kernel
    have queued : 20 ∈ lateChunk.skippedWaiting.heap := by decide +kernel
    have before : requestLt lateChunk.objects 20 10 = true := by decide +kernel
    have least := (serves.peek 10 front).2 20 queued
    rw [before] at least
    cases least

end Runs
end VllmDcu.PriorityOrder

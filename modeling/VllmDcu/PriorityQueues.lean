import VllmDcu.Dict
import VllmDcu.Requests
import VllmDcu.HeapQueue

/-! The queues of the scheduler under the PRIORITY policy. They hold request objects,
and the fields that order them can change while an object is queued. A reference
stands for the object's `id`. -/
namespace VllmDcu.PriorityQueues
open Requests HeapQueue List

abbrev Ref := Nat

/-- The fields of a request that the queues and their callers read. The streaming
queue holds the arrival times of the updates, and `none` for the end of the session. -/
structure QueuedRequest where
  requestId : ReqId
  priority : Int
  arrivalTime : Int
  status : RequestStatus
  resumable : Bool
  streamingQueue : Option (List (Option Int))

abbrev Objects := Ref → QueuedRequest

/-- `Request.__lt__`. -/
def requestLt (objects : Objects) (self other : Ref) : Bool :=
  if (objects self).priority ≠ (objects other).priority then
    decide ((objects self).priority < (objects other).priority)
  else if (objects self).arrivalTime ≠ (objects other).arrivalTime then
    decide ((objects self).arrivalTime < (objects other).arrivalTime)
  else if (objects self).requestId ≠ (objects other).requestId then
    decide ((objects self).requestId < (objects other).requestId)
  else decide (self < other)

structure PriorityRequestQueue where
  heap : List Ref

namespace PriorityRequestQueue

def empty : PriorityRequestQueue := ⟨[]⟩

def addRequest (self : PriorityRequestQueue) (objects : Objects) (request : Ref) : PriorityRequestQueue :=
  ⟨heappush (requestLt objects) self.heap request⟩

/-- There is no result for an empty queue. -/
def popRequest (self : PriorityRequestQueue) (objects : Objects) : Option (Ref × PriorityRequestQueue) :=
  (heappop (requestLt objects) self.heap).map fun (request, rest) => (request, ⟨rest⟩)

def peekRequest (self : PriorityRequestQueue) : Option Ref := self.heap[0]?

def prependRequest (self : PriorityRequestQueue) (objects : Objects) (request : Ref) :
    PriorityRequestQueue := self.addRequest objects request

/-- The requests in the order in which the queue is iterated. -/
def iterate (self : PriorityRequestQueue) (objects : Objects) : List Ref :=
  HeapQueue.iterate (requestLt objects) self.heap

def prependRequests (self : PriorityRequestQueue) (objects : Objects) (requests : PriorityRequestQueue) :
    PriorityRequestQueue :=
  (requests.iterate objects).foldl (fun queue request => queue.addRequest objects request) self

/-- There is no result when the request is not in the queue. -/
def removeRequest (self : PriorityRequestQueue) (objects : Objects) (request : Ref) :
    Option PriorityRequestQueue :=
  if request ∈ self.heap then some ⟨heapify (requestLt objects) (self.heap.erase request)⟩ else none

def removeRequests (self : PriorityRequestQueue) (objects : Objects) (requests : List Ref) :
    PriorityRequestQueue :=
  ⟨heapify (requestLt objects) (self.heap.filter fun request => !requests.contains request)⟩

end PriorityRequestQueue

section Order

theorem requestLt_iff (objects : Objects) (self other : Ref) :
    requestLt objects self other = true ↔
      (objects self).priority < (objects other).priority ∨
        (objects self).priority = (objects other).priority ∧
          ((objects self).arrivalTime < (objects other).arrivalTime ∨
            (objects self).arrivalTime = (objects other).arrivalTime ∧
              ((objects self).requestId < (objects other).requestId ∨
                (objects self).requestId = (objects other).requestId ∧ self < other)) := by
  rw [requestLt]
  split
  · rw [decide_eq_true_iff]
    omega
  · split
    · rw [decide_eq_true_iff]
      omega
    · split
      · rw [decide_eq_true_iff]
        unfold ReqId at *
        omega
      · rw [decide_eq_true_iff]
        unfold ReqId Ref at *
        omega

theorem requestLt_order (objects : Objects) : StrictWeak (requestLt objects) := by
  constructor
  · intro a b before
    rw [requestLt_iff] at before
    rw [← Bool.not_eq_true, requestLt_iff]
    unfold ReqId Ref at *
    omega
  · intro a b c first second
    rw [← Bool.not_eq_true, requestLt_iff] at *
    unfold ReqId Ref at *
    omega

/-- The fields that order a request. -/
def key (request : QueuedRequest) : Int × Int × ReqId :=
  (request.priority, request.arrivalTime, request.requestId)

theorem requestLt_congr {objects objects' : Objects} {self other : Ref}
    (left : key (objects' self) = key (objects self)) (right : key (objects' other) = key (objects other)) :
    requestLt objects' self other = requestLt objects self other := by
  simp only [key, Prod.mk.injEq] at left right
  rw [requestLt, requestLt, left.1, left.2.1, left.2.2, right.1, right.2.1, right.2.2]

/-- The pairs of the heap that the request is part of are in order. -/
def KeepsPlace (objects : Objects) (request : Ref) (heap : List Ref) : Prop :=
  ∀ i < heap.length, 0 < i → heap[i]? = some request ∨ heap[parentPos i]? = some request →
    Before (requestLt objects) heap (parentPos i) i

variable {objects objects' : Objects} {heap : List Ref}

theorem ordered_congr (same : ∀ request ∈ heap, key (objects' request) = key (objects request))
    (ordered : Ordered (requestLt objects) heap) : Ordered (requestLt objects') heap := by
  intro i positive behind a memberA b memberB
  rw [requestLt_congr (same b (mem_of_getElem? memberB)) (same a (mem_of_getElem? memberA))]
  exact ordered i positive behind a memberA b memberB

/-- One request has new fields and still fits its place. -/
theorem ordered_update {request : Ref} (same : ∀ other, other ≠ request → key (objects' other) = key (objects other))
    (keeps : KeepsPlace objects' request heap) (ordered : Ordered (requestLt objects) heap) :
    Ordered (requestLt objects') heap := by
  intro i positive behind a memberA b memberB
  by_cases own : heap[i]? = some request ∨ heap[parentPos i]? = some request
  · exact keeps i (List.getElem?_eq_some_iff.mp memberB).1 positive own a memberA b memberB
  · rw [not_or] at own
    have notA : a ≠ request := fun equal => own.2 (equal ▸ memberA)
    have notB : b ≠ request := fun equal => own.1 (equal ▸ memberB)
    rw [requestLt_congr (same b notB) (same a notA)]
    exact ordered i positive behind a memberA b memberB

end Order

section Service

/-- What a priority queue promises of the requests in it, as they are now. -/
structure Serves (objects : Objects) (queue : PriorityRequestQueue) : Prop where
  peek : ∀ first, queue.peekRequest = some first → first ∈ queue.heap ∧
    ∀ request ∈ queue.heap, requestLt objects request first = false
  pop : ∀ first rest, queue.popRequest objects = some (first, rest) →
    queue.peekRequest = some first ∧ queue.heap.Perm (first :: rest.heap)
  answers : queue.heap ≠ [] → queue.peekRequest.isSome ∧ (queue.popRequest objects).isSome
  iterates : (queue.iterate objects).Perm queue.heap ∧
    (queue.iterate objects).Pairwise fun earlier later => requestLt objects later earlier = false

theorem ordered_serves {objects : Objects} {queue : PriorityRequestQueue}
    (ordered : Ordered (requestLt objects) queue.heap) : Serves objects queue := by
  have order := requestLt_order objects
  constructor
  · intro first front
    exact ⟨mem_of_getElem? front, fun request member => head_before order ordered front member⟩
  · intro first rest popped
    rw [PriorityRequestQueue.popRequest] at popped
    rw [PriorityRequestQueue.peekRequest]
    cases listed : queue.heap with
    | nil =>
      rw [listed] at popped
      cases popped
    | cons head tail =>
      obtain ⟨rest', found, _, perm⟩ := heappop_spec order ordered listed
      rw [found] at popped
      cases popped
      exact ⟨rfl, perm.symm.cons _⟩
  · intro proper
    obtain ⟨head, tail, listed⟩ := exists_cons_of_ne_nil proper
    obtain ⟨rest, found, _⟩ := heappop_spec order ordered listed
    rw [PriorityRequestQueue.peekRequest, PriorityRequestQueue.popRequest, found, listed]
    exact ⟨rfl, rfl⟩
  · exact iterate_spec order ordered

end Service
end VllmDcu.PriorityQueues

import VllmDcu.Dict
import VllmDcu.Requests
import Mathlib.Algebra.Order.BigOperators.Group.Finset

/-! The cache of encoder outputs. Free and freeable slots are counted in
embeddings; an entry without references stays cached until its space is needed.
An input is passed as the feature that `mm_features[input_id]` is. -/
namespace VllmDcu.EncoderCache
open Requests

/-- What the cache reads of a request. -/
structure EncoderRequest where
  requestId : ReqId
  mmFeatures : List MultiModalFeatureSpec
  deriving DecidableEq

structure EncoderCacheManager where
  cacheSize : Nat
  numFreeSlots : Int
  numFreeableSlots : Int
  cached : Dict String (Finset ReqId)
  freeable : Dict String Nat
  freed : List String

namespace EncoderCacheManager

def init (cacheSize : Nat) : EncoderCacheManager :=
  ⟨cacheSize, cacheSize, cacheSize, Dict.empty, Dict.empty, []⟩

def reset (self : EncoderCacheManager) : EncoderCacheManager :=
  { self with
    cached := Dict.empty
    freeable := Dict.empty
    freed := []
    numFreeSlots := self.cacheSize
    numFreeableSlots := self.cacheSize }

/-- A failed lookup in `freeable` is a KeyError. -/
def checkAndUpdateCache (self : EncoderCacheManager) (request : EncoderRequest)
    (feature : MultiModalFeatureSpec) : Option (Bool × EncoderCacheManager) :=
  match self.cached.get? feature.identifier with
  | none => some (false, self)
  | some references =>
    if references = ∅ then
      match self.freeable.get? feature.identifier with
      | none => none
      | some numEncoderEmbeds =>
        some (true, { self with
          freeable := self.freeable.erase feature.identifier
          numFreeableSlots := self.numFreeableSlots - numEncoderEmbeds
          cached := self.cached.set feature.identifier {request.requestId} })
    else
      some (true, { self with
        cached := self.cached.set feature.identifier (insert request.requestId references) })

/-- The loop that pops the oldest freeable entries until `numEmbeds` fit. There is
no result when an entry is popped from the empty dictionary or is not cached. -/
def evictOldest (numEmbeds : Nat) : List (String × Nat) → EncoderCacheManager → Option EncoderCacheManager
  | [], self => if numEmbeds ≤ self.numFreeSlots then some self else none
  | (mmHash, numFreeEmbeds) :: rest, self =>
    if numEmbeds ≤ self.numFreeSlots then some self
    else if self.cached.contains mmHash then
      evictOldest numEmbeds rest { self with
        freeable := self.freeable.erase mmHash
        cached := self.cached.erase mmHash
        freed := self.freed ++ [mmHash]
        numFreeSlots := self.numFreeSlots + numFreeEmbeds }
    else none

def canAllocate (self : EncoderCacheManager) (feature : MultiModalFeatureSpec)
    (encoderComputeBudget numEmbedsToSchedule : Nat) : Option (Bool × EncoderCacheManager) :=
  let numEmbeds := feature.mmPosition.getNumEmbeds
  if encoderComputeBudget < numEmbeds then some (false, self)
  else if (numEmbeds + numEmbedsToSchedule : Nat) ≤ self.numFreeSlots then some (true, self)
  else if self.numFreeableSlots < (numEmbeds + numEmbedsToSchedule : Nat) then some (false, self)
  else
    (evictOldest (numEmbeds + numEmbedsToSchedule) self.freeable.entries self).map fun next => (true, next)

/-- There is no result when one of the assertions fails. -/
def allocate (self : EncoderCacheManager) (request : EncoderRequest) (feature : MultiModalFeatureSpec) :
    Option EncoderCacheManager :=
  let numEncoderEmbeds := feature.mmPosition.getNumEmbeds
  if numEncoderEmbeds ≤ self.numFreeSlots ∧ numEncoderEmbeds ≤ self.numFreeableSlots then
    some { self with
      cached := self.cached.set feature.identifier
        (insert request.requestId ((self.cached.get? feature.identifier).getD ∅))
      numFreeSlots := self.numFreeSlots - numEncoderEmbeds
      numFreeableSlots := self.numFreeableSlots - numEncoderEmbeds }
  else none

/-- The positions of the request's features that are cached. -/
def getCachedInputIds (self : EncoderCacheManager) (request : EncoderRequest) : List Nat :=
  (List.range request.mmFeatures.length).filter fun inputId =>
    (request.mmFeatures[inputId]?).any fun feature => self.cached.contains feature.identifier

def freeEncoderInput (self : EncoderCacheManager) (request : EncoderRequest)
    (feature : MultiModalFeatureSpec) : EncoderCacheManager :=
  match self.cached.get? feature.identifier with
  | none => self
  | some references =>
    if references = ∅ then self
    else if references.erase request.requestId = ∅ then
      { self with
        cached := self.cached.set feature.identifier ∅
        freeable := self.freeable.set feature.identifier feature.mmPosition.getNumEmbeds
        numFreeableSlots := self.numFreeableSlots + feature.mmPosition.getNumEmbeds }
    else
      { self with cached := self.cached.set feature.identifier (references.erase request.requestId) }

def freeInputs (self : EncoderCacheManager) (request : EncoderRequest) (inputIds : List Nat) :
    EncoderCacheManager :=
  inputIds.foldl (fun self inputId =>
    match request.mmFeatures[inputId]? with
    | none => self
    | some feature => self.freeEncoderInput request feature) self

/-- The cached inputs are freed in the order in which the set is iterated. -/
def free (self : EncoderCacheManager) (request : EncoderRequest) (order : List Nat) :
    EncoderCacheManager :=
  self.freeInputs request (order.filter (self.getCachedInputIds request).contains)

end EncoderCacheManager
end VllmDcu.EncoderCache

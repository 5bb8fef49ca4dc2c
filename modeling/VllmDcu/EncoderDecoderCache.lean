import VllmDcu.EncoderScheduling
import Mathlib.Algebra.Order.Ring.Nat

/-! The cache manager of encoder-decoder models only counts slots. It does not know
what was allocated to whom; the ledger beside it does. -/
namespace VllmDcu.EncoderDecoderCache
open Requests EncoderCache EncoderScheduling

structure EncoderDecoderCacheManager where
  cacheSize : Nat
  numFreeSlots : Int
  allocated : List String
  toFree : List String

namespace EncoderDecoderCacheManager

def init (cacheSize : Nat) : EncoderDecoderCacheManager := ⟨cacheSize, cacheSize, [], []⟩

def reset (self : EncoderDecoderCacheManager) : EncoderDecoderCacheManager :=
  { self with numFreeSlots := self.cacheSize, allocated := [], toFree := [] }

def checkAndUpdateCache (self : EncoderDecoderCacheManager) (_request : EncoderRequest)
    (_feature : MultiModalFeatureSpec) : Option (Bool × EncoderDecoderCacheManager) := some (false, self)

def canAllocate (self : EncoderDecoderCacheManager) (feature : MultiModalFeatureSpec)
    (encoderComputeBudget numEmbedsToSchedule : Nat) : Option (Bool × EncoderDecoderCacheManager) :=
  let numEncoderEmbeds := feature.mmPosition.getNumEmbeds
  if encoderComputeBudget < numEncoderEmbeds then some (false, self)
  else some (decide ((numEncoderEmbeds + numEmbedsToSchedule : Nat) ≤ self.numFreeSlots), self)

def allocate (self : EncoderDecoderCacheManager) (feature : MultiModalFeatureSpec) :
    EncoderDecoderCacheManager :=
  { self with
    numFreeSlots := self.numFreeSlots - feature.mmPosition.getNumEmbeds
    allocated := self.allocated ++ [feature.identifier] }

def freeEncoderInput (self : EncoderDecoderCacheManager) (feature : MultiModalFeatureSpec) :
    EncoderDecoderCacheManager :=
  { self with numFreeSlots := self.numFreeSlots + feature.mmPosition.getNumEmbeds }

def getCachedInputIds (_self : EncoderDecoderCacheManager) (request : EncoderRequest) : List Nat :=
  List.range request.mmFeatures.length

def getFreedMmHashes (self : EncoderDecoderCacheManager) : List String × EncoderDecoderCacheManager :=
  (self.toFree, { self with toFree := self.allocated, allocated := [] })

end EncoderDecoderCacheManager

def encoderDecoderCacheMethods : CacheMethods EncoderDecoderCacheManager where
  checkAndUpdateCache := EncoderDecoderCacheManager.checkAndUpdateCache
  canAllocate := EncoderDecoderCacheManager.canAllocate

theorem canAllocate_spec {manager asked : EncoderDecoderCacheManager} {feature : MultiModalFeatureSpec}
    {encoderComputeBudget numEmbedsToSchedule : Nat} {answer : Bool}
    (ran : encoderDecoderCacheMethods.canAllocate manager feature encoderComputeBudget
      numEmbedsToSchedule = some (answer, asked)) :
    asked = manager ∧ (answer = true → feature.mmPosition.getNumEmbeds ≤ encoderComputeBudget ∧
      (feature.mmPosition.getNumEmbeds + numEmbedsToSchedule : Nat) ≤ manager.numFreeSlots) := by
  change manager.canAllocate feature encoderComputeBudget numEmbedsToSchedule = _ at ran
  rw [EncoderDecoderCacheManager.canAllocate] at ran
  split at ran
  · cases ran
    exact ⟨rfl, fun no => (by cases no)⟩
  · rename_i affordable
    obtain ⟨fits, same⟩ := Prod.mk.inj (Option.some.inj ran)
    refine ⟨same.symm, fun yes => ⟨by omega, ?_⟩⟩
    rw [yes] at fits
    exact of_decide_eq_true fits

theorem lookup_spec {manager looked : EncoderDecoderCacheManager} {config : Config}
    {request : EncoderRequest} {feature : MultiModalFeatureSpec} {plan : Plan} {hit : Bool}
    (ran : lookup encoderDecoderCacheMethods config request feature plan manager = some (hit, looked)) :
    looked = manager := by
  rw [lookup] at ran
  split at ran
  · cases ran
    rfl
  · split at ran
    · cases ran
      rfl
    · cases ran
      rfl

section Planning
variable {config : Config} {request : EncoderRequest} {encoderComputeBudget : Nat} {plan after : Plan}
  {manager next : EncoderDecoderCacheManager} {numComputedTokens shiftComputedTokens : Nat}

/-- Asking about inputs changes nothing, and the chosen ones fit together. -/
theorem planInput_tracks {feature : MultiModalFeatureSpec} {inputId : Nat} {turn : Turn}
    (tracks : Tracks request encoderComputeBudget manager.numFreeSlots plan)
    (named : request.mmFeatures[inputId]? = some feature)
    (ran : planInput encoderDecoderCacheMethods config request numComputedTokens shiftComputedTokens
      feature inputId plan manager = some (turn, after, next)) :
    next = manager ∧ Tracks request encoderComputeBudget manager.numFreeSlots after := by
  rw [planInput] at ran
  dsimp only at ran
  split at ran
  · cases ran
    exact ⟨rfl, tracks⟩
  · split at ran
    · split at ran
      · cases ran
        exact ⟨rfl, tracks⟩
      · cases ran
    · split at ran
      · cases ran
        exact ⟨rfl, tracks⟩
      · split at ran
        · cases ran
        · rename_i found
          cases ran
          exact ⟨lookup_spec found, tracks⟩
        · rename_i looked found
          cases lookup_spec found
          split at ran
          · cases ran
            exact ⟨rfl, tracks.mono (le_refl _) _⟩
          · split at ran
            · cases ran
            · rename_i asked
              cases ran
              exact ⟨(canAllocate_spec asked).1, tracks.mono (le_refl _) _⟩
            · rename_i asked
              obtain ⟨same, granted⟩ := canAllocate_spec asked
              obtain ⟨affordable, fits⟩ := granted rfl
              split at ran
              · cases ran
                exact ⟨same, tracks⟩
              · cases ran
                exact ⟨same, tracks.add named affordable fits⟩

theorem planInputs_tracks (rest : List (MultiModalFeatureSpec × Nat))
    (listed : ∀ entry ∈ rest, request.mmFeatures[entry.2]? = some entry.1)
    (tracks : Tracks request encoderComputeBudget manager.numFreeSlots plan)
    (ran : planInputs encoderDecoderCacheMethods config request numComputedTokens shiftComputedTokens
      rest plan manager = some (after, next)) :
    next = manager ∧ Tracks request encoderComputeBudget manager.numFreeSlots after := by
  induction rest generalizing plan manager with
  | nil =>
    cases ran
    exact ⟨rfl, tracks⟩
  | cons entry rest ih =>
    obtain ⟨feature, inputId⟩ := entry
    rw [planInputs] at ran
    have named := listed (feature, inputId) List.mem_cons_self
    split at ran
    · cases ran
    · rename_i turned
      cases ran
      exact planInput_tracks tracks named turned
    · rename_i turned
      obtain ⟨rfl, tracks⟩ := planInput_tracks tracks named turned
      exact ih (fun entry member => listed entry (List.mem_cons_of_mem _ member)) tracks ran

theorem tryScheduleEncoderInputs_tracks {numNewTokens : Nat} (nonneg : 0 ≤ manager.numFreeSlots)
    (ran : tryScheduleEncoderInputs encoderDecoderCacheMethods config request numComputedTokens
      numNewTokens encoderComputeBudget shiftComputedTokens manager = some (after, next)) :
    next = manager ∧ Tracks request encoderComputeBudget manager.numFreeSlots after := by
  have start := Tracks.start nonneg request numNewTokens encoderComputeBudget
  rw [tryScheduleEncoderInputs] at ran
  split at ran
  · cases ran
    exact ⟨rfl, start⟩
  · exact planInputs_tracks _ (fun _ member => List.mem_zipIdx_iff_getElem?.mp member) start ran

end Planning
end VllmDcu.EncoderDecoderCache

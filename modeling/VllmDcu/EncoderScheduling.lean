import VllmDcu.EncoderCache

/-! Which encoder inputs a step computes for a request, and how many tokens are
left to it when one of them has to wait. -/
namespace VllmDcu.EncoderScheduling
open Requests EncoderCache List

/-- What the scheduler calls on either kind of cache manager. There is no result
when the call raises. -/
structure CacheMethods (Manager : Type) where
  checkAndUpdateCache : Manager → EncoderRequest → MultiModalFeatureSpec → Option (Bool × Manager)
  canAllocate : Manager → MultiModalFeatureSpec → Nat → Nat → Option (Bool × Manager)

def encoderCacheMethods : CacheMethods EncoderCacheManager where
  checkAndUpdateCache := EncoderCacheManager.checkAndUpdateCache
  canAllocate := EncoderCacheManager.canAllocate

/-- `hasCacheItem` answers for the connector to a remote encoder cache, if there is one. -/
structure Config where
  isEncoderDecoder : Bool
  disableChunkedMmInput : Bool
  hasCacheItem : Option (String → Bool)

/-- The result and the temporary trackers of `_try_schedule_encoder_inputs`. -/
structure Plan where
  encoderInputsToSchedule : List Nat
  numNewTokens : Nat
  encoderComputeBudget : Nat
  externalLoadEncoderInput : List Nat
  mmHashesToSchedule : List String
  numEmbedsToSchedule : Nat
  deriving DecidableEq

variable {Manager : Type}

/-- Dedup and lookup, which encoder-decoder models go without. -/
def lookup (methods : CacheMethods Manager) (config : Config) (request : EncoderRequest)
    (feature : MultiModalFeatureSpec) (plan : Plan) (manager : Manager) : Option (Bool × Manager) :=
  if config.isEncoderDecoder then some (false, manager)
  else if plan.mmHashesToSchedule.contains feature.identifier then some (true, manager)
  else methods.checkAndUpdateCache manager request feature

/-- The range of the placeholder that the step computes; the shift is not part of it. -/
def embedsInRange (numComputedTokens numNewTokens : Nat) (feature : MultiModalFeatureSpec) : Int × Int :=
  let startPos : Int := feature.mmPosition.offset
  feature.mmPosition.getEmbedsIndicesInRange (max 0 (numComputedTokens - startPos))
    (min feature.mmPosition.length (numComputedTokens + numNewTokens - startPos))

/-- The input joins those to compute or to load. -/
def Plan.add (config : Config) (plan : Plan) (feature : MultiModalFeatureSpec) (inputId : Nat) : Plan :=
  let numEncoderEmbeds := feature.mmPosition.getNumEmbeds
  if config.hasCacheItem.any fun has => has feature.identifier then
    { plan with
      mmHashesToSchedule := plan.mmHashesToSchedule ++ [feature.identifier]
      externalLoadEncoderInput := plan.externalLoadEncoderInput ++ [inputId]
      numEmbedsToSchedule := plan.numEmbedsToSchedule + numEncoderEmbeds }
  else
    { plan with
      numEmbedsToSchedule := plan.numEmbedsToSchedule + numEncoderEmbeds
      encoderComputeBudget := plan.encoderComputeBudget - numEncoderEmbeds
      mmHashesToSchedule := plan.mmHashesToSchedule ++ [feature.identifier]
      encoderInputsToSchedule := plan.encoderInputsToSchedule ++ [inputId] }

/-- How one round of the loop ends: by `break`, or by going on to the next input
because this one needs nothing, has no embeddings in the range, or was taken. -/
inductive Turn
  | leave
  | skip
  | passOver
  | take
  deriving DecidableEq

/-- One round of the loop. -/
def planInput (methods : CacheMethods Manager) (config : Config) (request : EncoderRequest)
    (numComputedTokens shiftComputedTokens : Nat) (feature : MultiModalFeatureSpec) (inputId : Nat)
    (plan : Plan) (manager : Manager) : Option (Turn × Plan × Manager) :=
  let startPos := feature.mmPosition.offset
  let numEncoderTokens := feature.mmPosition.length
  if numComputedTokens + plan.numNewTokens + shiftComputedTokens ≤ startPos then
    some (.leave, plan, manager)
  else if config.isEncoderDecoder && decide (0 < numComputedTokens) then
    -- The assertion on the place of encoder inputs.
    if startPos = 0 then some (.skip, plan, manager) else none
  else if startPos + numEncoderTokens ≤ numComputedTokens then some (.skip, plan, manager)
  else
    match lookup methods config request feature plan manager with
    | none => none
    | some (true, manager) => some (.skip, plan, manager)
    | some (false, manager) =>
      if config.disableChunkedMmInput && decide (numComputedTokens < startPos) &&
          decide (numComputedTokens + plan.numNewTokens < startPos + numEncoderTokens) then
        -- No part of the input is scheduled, with the shift neither.
        some (.leave, { plan with
          numNewTokens := startPos - (numComputedTokens + shiftComputedTokens) }, manager)
      else
        match methods.canAllocate manager feature plan.encoderComputeBudget
            plan.numEmbedsToSchedule with
        | none => none
        | some (false, manager) =>
          some (.leave, { plan with
            numNewTokens :=
              if numComputedTokens + shiftComputedTokens < startPos then
                startPos - (numComputedTokens + shiftComputedTokens)
              else 0 }, manager)
        | some (true, manager) =>
          let range := embedsInRange numComputedTokens plan.numNewTokens feature
          if range.2 - range.1 = 0 then some (.passOver, plan, manager)
          else some (.take, plan.add config feature inputId, manager)

/-- The loop over the features with their indices. -/
def planInputs (methods : CacheMethods Manager) (config : Config) (request : EncoderRequest)
    (numComputedTokens shiftComputedTokens : Nat) :
    List (MultiModalFeatureSpec × Nat) → Plan → Manager → Option (Plan × Manager)
  | [], plan, manager => some (plan, manager)
  | (feature, inputId) :: rest, plan, manager =>
    match planInput methods config request numComputedTokens shiftComputedTokens feature inputId
        plan manager with
    | none => none
    | some (.leave, plan, manager) => some (plan, manager)
    | some (_, plan, manager) =>
      planInputs methods config request numComputedTokens shiftComputedTokens rest plan manager

def startPlan (numNewTokens encoderComputeBudget : Nat) : Plan :=
  ⟨[], numNewTokens, encoderComputeBudget, [], [], 0⟩

def tryScheduleEncoderInputs (methods : CacheMethods Manager) (config : Config)
    (request : EncoderRequest) (numComputedTokens numNewTokens encoderComputeBudget
      shiftComputedTokens : Nat) (manager : Manager) : Option (Plan × Manager) :=
  if numNewTokens = 0 ∨ request.mmFeatures = [] then
    some (startPlan numNewTokens encoderComputeBudget, manager)
  else
    planInputs methods config request numComputedTokens shiftComputedTokens
      request.mmFeatures.zipIdx (startPlan numNewTokens encoderComputeBudget) manager

section Trackers

/-- The sizes of inputs of the request. -/
def embeds (request : EncoderRequest) (inputIds : List Nat) : Nat :=
  (inputIds.map fun inputId =>
    ((request.mmFeatures[inputId]?).map fun feature => feature.mmPosition.getNumEmbeds).getD 0).sum

/-- One of the inputs to compute or to load has the hash. -/
def Provides (request : EncoderRequest) (plan : Plan) (mmHash : String) : Prop :=
  ∃ inputId ∈ plan.encoderInputsToSchedule ++ plan.externalLoadEncoderInput,
    ∃ feature, request.mmFeatures[inputId]? = some feature ∧ feature.identifier = mmHash

/-- The trackers of the loop are those of the inputs it chose. -/
structure Tracks (request : EncoderRequest) (encoderComputeBudget : Nat) (numFreeSlots : Int)
    (plan : Plan) : Prop where
  provides : ∀ mmHash, mmHash ∈ plan.mmHashesToSchedule ↔ Provides request plan mmHash
  budget : embeds request plan.encoderInputsToSchedule + plan.encoderComputeBudget = encoderComputeBudget
  chosen : plan.numEmbedsToSchedule =
    embeds request (plan.encoderInputsToSchedule ++ plan.externalLoadEncoderInput)
  room : plan.numEmbedsToSchedule ≤ numFreeSlots

theorem embeds_append (request : EncoderRequest) (first second : List Nat) :
    embeds request (first ++ second) = embeds request first + embeds request second := by
  rw [embeds, map_append, sum_append]
  rfl

theorem embeds_single {request : EncoderRequest} {inputId : Nat} {feature : MultiModalFeatureSpec}
    (named : request.mmFeatures[inputId]? = some feature) :
    embeds request [inputId] = feature.mmPosition.getNumEmbeds := by
  simp [embeds, named]

variable {request : EncoderRequest} {encoderComputeBudget : Nat} {numFreeSlots : Int} {plan : Plan}

theorem Tracks.start (nonneg : 0 ≤ numFreeSlots) (request : EncoderRequest)
    (numNewTokens encoderComputeBudget : Nat) :
    Tracks request encoderComputeBudget numFreeSlots (startPlan numNewTokens encoderComputeBudget) := by
  constructor
  · simp [startPlan, Provides]
  · simp [startPlan, embeds]
  · rfl
  · exact nonneg

theorem Tracks.mono {more : Int} (tracks : Tracks request encoderComputeBudget numFreeSlots plan)
    (larger : numFreeSlots ≤ more) (numNewTokens : Nat) :
    Tracks request encoderComputeBudget more { plan with numNewTokens := numNewTokens } := by
  constructor
  · exact tracks.provides
  · exact tracks.budget
  · exact tracks.chosen
  · exact le_trans tracks.room larger

theorem Tracks.add (tracks : Tracks request encoderComputeBudget numFreeSlots plan) {config : Config}
    {feature : MultiModalFeatureSpec} {inputId : Nat}
    (named : request.mmFeatures[inputId]? = some feature)
    (affordable : feature.mmPosition.getNumEmbeds ≤ plan.encoderComputeBudget)
    (fits : (feature.mmPosition.getNumEmbeds + plan.numEmbedsToSchedule : Nat) ≤ numFreeSlots) :
    Tracks request encoderComputeBudget numFreeSlots (plan.add config feature inputId) := by
  have budget := tracks.budget
  have chosen := tracks.chosen
  have single := embeds_single named
  rw [embeds_append] at chosen
  have provides : ∀ mmHash, mmHash ∈ (plan.add config feature inputId).mmHashesToSchedule ↔
      Provides request (plan.add config feature inputId) mmHash := by
    intro mmHash
    have before := tracks.provides mmHash
    rw [Plan.add]
    split <;>
    · rw [mem_append, before, mem_singleton]
      constructor
      · rintro (⟨other, member, found⟩ | rfl)
        · exact ⟨other, by simp only [mem_append] at member ⊢; tauto, found⟩
        · exact ⟨inputId, by simp, feature, named, rfl⟩
      · rintro ⟨other, member, found, known, same⟩
        by_cases fresh : other = inputId
        · rw [fresh, named] at known
          cases known
          exact Or.inr same.symm
        · refine Or.inl ⟨other, ?_, found, known, same⟩
          simp only [mem_append, mem_singleton] at member ⊢
          tauto
  constructor
  · exact provides
  · rw [Plan.add]
    split
    · exact budget
    · dsimp only
      rw [embeds_append]
      omega
  · rw [Plan.add]
    split <;>
    · simp only [embeds_append]
      omega
  · rw [Plan.add]
    split <;>
    · dsimp only
      omega

theorem add_numNewTokens {config : Config} {plan : Plan} {feature : MultiModalFeatureSpec} {inputId : Nat} :
    (plan.add config feature inputId).numNewTokens = plan.numNewTokens := by
  rw [Plan.add]
  split <;> rfl

theorem mem_add (config : Config) (plan : Plan) (feature : MultiModalFeatureSpec) (inputId : Nat)
    (mmHash : String) : mmHash ∈ (plan.add config feature inputId).mmHashesToSchedule ↔
      mmHash ∈ plan.mmHashesToSchedule ∨ mmHash = feature.identifier := by
  rw [Plan.add]
  split <;> simp

end Trackers
end VllmDcu.EncoderScheduling

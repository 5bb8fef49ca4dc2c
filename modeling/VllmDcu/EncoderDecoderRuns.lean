import VllmDcu.EncoderDecoderCache

/-! Runs of the scheduler on an encoder-decoder model. The inputs of a request are
freed after every step in which it was scheduled and again when it is preempted,
finished or refused, whether or not they are allocated. -/
namespace VllmDcu.EncoderDecoderRuns
open Requests EncoderCache EncoderScheduling EncoderDecoderCache List Option Dict

section Ledger

/-- An input of a request with its size. -/
structure Allocation where
  requestId : ReqId
  inputId : Nat
  numEmbeds : Nat
  deriving DecidableEq

/-- The manager beside the inputs that are allocated and not yet freed. -/
structure Ledger where
  manager : EncoderDecoderCacheManager
  outstanding : List Allocation

def inputEmbeds (request : EncoderRequest) (inputId : Nat) : Nat :=
  ((request.mmFeatures[inputId]?).map fun feature => feature.mmPosition.getNumEmbeds).getD 0

def entry (request : EncoderRequest) (inputId : Nat) : Allocation :=
  ⟨request.requestId, inputId, inputEmbeds request inputId⟩

def Ledger.owed (ledger : Ledger) : Nat := (ledger.outstanding.map Allocation.numEmbeds).sum

/-- There is no result when an index is out of range. -/
def Ledger.allocate (request : EncoderRequest) : List Nat → Ledger → Option Ledger
  | [], ledger => some ledger
  | inputId :: rest, ledger =>
    match request.mmFeatures[inputId]? with
    | none => none
    | some feature => Ledger.allocate request rest
        ⟨ledger.manager.allocate feature, ledger.outstanding ++ [entry request inputId]⟩

def Ledger.freeEncoderInput (request : EncoderRequest) (ledger : Ledger) (inputId : Nat) : Ledger :=
  match request.mmFeatures[inputId]? with
  | none => ledger
  | some feature =>
    ⟨ledger.manager.freeEncoderInput feature, ledger.outstanding.erase (entry request inputId)⟩

def Ledger.freeInputs (ledger : Ledger) (request : EncoderRequest) (inputIds : List Nat) : Ledger :=
  inputIds.foldl (Ledger.freeEncoderInput request) ledger

def Ledger.free (ledger : Ledger) (request : EncoderRequest) : Ledger :=
  ledger.freeInputs request (ledger.manager.getCachedInputIds request)

/-- What the manager believes to be in use is what is outstanding. -/
structure Balanced (cacheSize : Nat) (ledger : Ledger) : Prop where
  capacity : ledger.manager.cacheSize = cacheSize
  free : ledger.manager.numFreeSlots + ledger.owed = cacheSize
  nonneg : 0 ≤ ledger.manager.numFreeSlots

variable {cacheSize : Nat} {ledger next : Ledger} {request : EncoderRequest}

theorem allocate_spec (inputIds : List Nat) (allocated : Ledger.allocate request inputIds ledger = some next) :
    next.manager.cacheSize = ledger.manager.cacheSize ∧
      next.manager.numFreeSlots = ledger.manager.numFreeSlots - embeds request inputIds ∧
      next.outstanding = ledger.outstanding ++ inputIds.map (entry request) := by
  induction inputIds generalizing ledger with
  | nil =>
    cases allocated
    simp [embeds]
  | cons inputId rest ih =>
    rw [Ledger.allocate] at allocated
    cases named : request.mmFeatures[inputId]? with
    | none =>
      rw [named] at allocated
      cases allocated
    | some feature =>
      rw [named] at allocated
      obtain ⟨capacity, free, outstanding⟩ := ih allocated
      have total : embeds request (inputId :: rest) =
          feature.mmPosition.getNumEmbeds + embeds request rest := by
        rw [← singleton_append, embeds_append, embeds_single named]
      refine ⟨capacity, ?_, ?_⟩
      · rw [free, EncoderDecoderCacheManager.allocate]
        push_cast
        omega
      · rw [outstanding, append_assoc]
        rfl

theorem owed_entries (request : EncoderRequest) (inputIds : List Nat) :
    ((inputIds.map (entry request)).map Allocation.numEmbeds).sum = embeds request inputIds := by
  rw [List.map_map]
  rfl

theorem allocate_balanced (balanced : Balanced cacheSize ledger) {inputIds : List Nat}
    (fits : embeds request inputIds ≤ ledger.manager.numFreeSlots)
    (allocated : Ledger.allocate request inputIds ledger = some next) : Balanced cacheSize next := by
  obtain ⟨capacity, free, outstanding⟩ := allocate_spec inputIds allocated
  have owed : next.owed = ledger.owed + embeds request inputIds := by
    rw [Ledger.owed, outstanding, map_append, sum_append, owed_entries]
    rfl
  have before := balanced.free
  constructor
  · exact capacity.trans balanced.capacity
  · omega
  · omega

/-- Freeing an outstanding input, or one without embeddings. -/
theorem freeEncoderInput_balanced (balanced : Balanced cacheSize ledger) {inputId : Nat}
    (held : inputEmbeds request inputId = 0 ∨ entry request inputId ∈ ledger.outstanding) :
    Balanced cacheSize (ledger.freeEncoderInput request inputId) ∧
      ledger.manager.numFreeSlots ≤ (ledger.freeEncoderInput request inputId).manager.numFreeSlots := by
  rw [Ledger.freeEncoderInput]
  cases named : request.mmFeatures[inputId]? with
  | none => exact ⟨balanced, le_refl _⟩
  | some feature =>
    have size : inputEmbeds request inputId = feature.mmPosition.getNumEmbeds := by
      rw [inputEmbeds, named]
      rfl
    have paid : ((ledger.outstanding.erase (entry request inputId)).map Allocation.numEmbeds).sum +
        feature.mmPosition.getNumEmbeds = ledger.owed := by
      by_cases member : entry request inputId ∈ ledger.outstanding
      · have split := ((perm_cons_erase member).map Allocation.numEmbeds).sum_eq
        rw [Ledger.owed, split, entry, size]
        exact Nat.add_comm _ _
      · rcases held with zero | held
        · rw [erase_of_not_mem member, ← size, zero]
          rfl
        · exact absurd held member
    have before := balanced.free
    have nonneg := balanced.nonneg
    refine ⟨⟨balanced.capacity, ?_, ?_⟩, ?_⟩
    · rw [Ledger.owed]
      dsimp only [EncoderDecoderCacheManager.freeEncoderInput]
      omega
    · dsimp only [EncoderDecoderCacheManager.freeEncoderInput]
      omega
    · dsimp only [EncoderDecoderCacheManager.freeEncoderInput]
      omega

theorem mem_freeEncoderInput {allocation : Allocation} {inputId : Nat}
    (member : allocation ∈ ledger.outstanding) (other : allocation ≠ entry request inputId) :
    allocation ∈ (ledger.freeEncoderInput request inputId).outstanding := by
  rw [Ledger.freeEncoderInput]
  split
  · exact member
  · exact (mem_erase_of_ne other).mpr member

/-- Each input is freed once, so the later ones are still outstanding when it is
their turn; the inputs of other requests are left alone. -/
theorem freeInputs_balanced (balanced : Balanced cacheSize ledger) {inputIds : List Nat}
    (once : inputIds.Nodup)
    (held : ∀ inputId ∈ inputIds, inputEmbeds request inputId = 0 ∨
      entry request inputId ∈ ledger.outstanding) :
    Balanced cacheSize (ledger.freeInputs request inputIds) ∧
      ledger.manager.numFreeSlots ≤ (ledger.freeInputs request inputIds).manager.numFreeSlots ∧
      ∀ allocation ∈ ledger.outstanding, allocation.requestId ≠ request.requestId →
        allocation ∈ (ledger.freeInputs request inputIds).outstanding := by
  induction inputIds generalizing ledger with
  | nil => exact ⟨balanced, le_refl _, fun _ member _ => member⟩
  | cons inputId rest ih =>
    obtain ⟨fresh, once⟩ := nodup_cons.mp once
    obtain ⟨kept, more⟩ := freeEncoderInput_balanced balanced (held inputId mem_cons_self)
    obtain ⟨balanced, more', others⟩ := ih kept once fun other member => by
      rcases held other (mem_cons_of_mem _ member) with zero | outstanding
      · exact Or.inl zero
      · refine Or.inr (mem_freeEncoderInput outstanding fun same => fresh ?_)
        rw [entry, entry, Allocation.mk.injEq] at same
        exact same.2.1 ▸ member
    refine ⟨balanced, le_trans more more', fun allocation member other => ?_⟩
    exact others allocation (mem_freeEncoderInput member fun same => other (by rw [same]; rfl)) other

end Ledger

section Scheduler

/-- What the scheduler reads of a request when it handles encoder inputs. -/
structure ScheduledRequest where
  request : EncoderRequest
  numComputedTokens : Nat
  status : RequestStatus

structure SchedulerConfig where
  disableChunkedMmInput : Bool
  hasCacheItem : Option (String → Bool)
  useEagle : Bool
  maxNumEncoderInputTokens : Nat

def SchedulerConfig.inputs (config : SchedulerConfig) : Config :=
  ⟨true, config.disableChunkedMmInput, config.hasCacheItem⟩

/-- During a call of `schedule()`, `scheduled` has the plan of each request of the step:
`num_scheduled_tokens`, `scheduled_encoder_inputs` and the external loads. -/
structure State where
  ledger : Ledger
  requests : Dict ReqId ScheduledRequest
  scheduling : Bool
  encoderComputeBudget : Nat
  scheduled : Dict ReqId Plan

def State.init (cacheSize : Nat) : State := ⟨⟨.init cacheSize, []⟩, .empty, false, 0, .empty⟩

def plannedInputs (plan : Plan) : List Nat := plan.encoderInputsToSchedule ++ plan.externalLoadEncoderInput

/-- Only running requests are preempted. One that this call has scheduled gives its
compute budget back. -/
def preemptRequest (state : State) (requestId : ReqId) : Option State :=
  match state.requests.get? requestId with
  | none => none
  | some r =>
    if r.status = .running then
      some { state with
        ledger := state.ledger.free r.request
        requests := state.requests.set requestId { r with numComputedTokens := 0, status := .preempted }
        encoderComputeBudget := state.encoderComputeBudget +
          ((state.scheduled.get? requestId).map fun plan =>
            embeds r.request plan.encoderInputsToSchedule).getD 0
        scheduled := state.scheduled.erase requestId }
    else none

def preemptRequests : List ReqId → State → Option State
  | [], state => some state
  | requestId :: rest, state => (preemptRequest state requestId).bind (preemptRequests rest)

/-- The tail of both loops: the request joins the step and its inputs are allocated. -/
def scheduleRequest (state : State) (r : ScheduledRequest) (plan : Plan) : Option State :=
  (Ledger.allocate r.request (plannedInputs plan) state.ledger).map fun ledger =>
    { state with
      ledger := ledger
      requests := state.requests.set r.request.requestId r
      encoderComputeBudget :=
        if plan.encoderInputsToSchedule = [] then state.encoderComputeBudget
        else plan.encoderComputeBudget
      scheduled := state.scheduled.set r.request.requestId plan }

def trySchedule (config : SchedulerConfig) (state : State) (r : ScheduledRequest) (numNewTokens : Nat) :
    Option (Plan × EncoderDecoderCacheManager) :=
  tryScheduleEncoderInputs encoderDecoderCacheMethods config.inputs r.request r.numComputedTokens
    numNewTokens state.encoderComputeBudget (if config.useEagle then 1 else 0) state.ledger.manager

/-- The inputs that `_free_encoder_inputs` frees. -/
def inputsToFree (manager : EncoderDecoderCacheManager) (r : ScheduledRequest) : List Nat :=
  (manager.getCachedInputIds r.request).filter fun inputId =>
    -- `is_encoder_decoder` is set.
    decide (0 < r.numComputedTokens) ||
      (r.request.mmFeatures[inputId]?).any fun feature =>
        decide (feature.mmPosition.offset + feature.mmPosition.length ≤ r.numComputedTokens)

/-- The loop over the scheduled requests. -/
def advanceRequests : List (ReqId × Plan) → State → Option State
  | [], state => some state
  | (requestId, plan) :: rest, state =>
    match state.requests.get? requestId with
    | none => none
    | some r =>
      let next := { r with numComputedTokens := r.numComputedTokens + plan.numNewTokens }
      advanceRequests rest { state with
        requests := state.requests.set requestId next
        ledger := state.ledger.freeInputs next.request (inputsToFree state.ledger.manager next) }

/-- The steps of the scheduler. How many tokens are asked for, how many blocks there
are and which requests are preempted for them is left open. -/
inductive Step
  | addRequest (request : EncoderRequest)
  | schedule
  | scheduleRunning (requestId : ReqId) (numNewTokens : Nat) (preempted : List ReqId)
  | scheduleWaiting (requestId : ReqId) (numComputedTokens numNewTokens : Nat) (newBlocks : Bool)
  | updateAfterSchedule
  | rejectTokens (requestId : ReqId) (numRejected : Nat)
  | finish (requestId : ReqId)
  | resetEncoderCache

/-- There is no result when the step is not possible or raises. -/
def step (config : SchedulerConfig) (state : State) : Step → Option State
  | .addRequest request =>
    if state.requests.contains request.requestId then none
    else some { state with
      requests := state.requests.set request.requestId ⟨request, 0, .waiting⟩ }
  | .schedule =>
    if state.scheduling then none
    else some { state with
      scheduling := true
      encoderComputeBudget := config.maxNumEncoderInputTokens
      scheduled := .empty }
  | .scheduleRunning requestId numNewTokens preempted => do
      let r ← state.requests.get? requestId
      if state.scheduling ∧ r.status = .running ∧ ¬ state.scheduled.contains requestId then
        let (plan, _) ← trySchedule config state r numNewTokens
        if plan.numNewTokens = 0 then some state
        else
          let state ← preemptRequests preempted state
          -- The request may have been preempted itself.
          if requestId ∈ preempted then some state else scheduleRequest state r plan
      else none
  | .scheduleWaiting requestId numComputedTokens numNewTokens newBlocks => do
      let r ← state.requests.get? requestId
      if state.scheduling ∧ (r.status = .waiting ∨ r.status = .preempted) ∧
          ¬ state.scheduled.contains requestId then
        let r := { r with numComputedTokens := numComputedTokens }
        let (plan, _) ← trySchedule config state r numNewTokens
        if plan.numNewTokens = 0 then some state
        else if newBlocks then scheduleRequest state { r with status := .running } plan
        else some { state with ledger := state.ledger.free r.request }
      else none
  | .updateAfterSchedule => do
      if state.scheduling then
        let state := { state with ledger :=
          { state.ledger with manager := state.ledger.manager.getFreedMmHashes.2 } }
        let state ← advanceRequests state.scheduled.entries state
        -- The local variables of `schedule()` are gone.
        some { state with scheduling := false, scheduled := .empty }
      else none
  | .rejectTokens requestId numRejected => do
      let r ← state.requests.get? requestId
      if state.scheduling then none
      else some { state with
        requests := state.requests.set requestId
          { r with numComputedTokens := r.numComputedTokens - numRejected } }
  | .finish requestId => do
      let r ← state.requests.get? requestId
      if state.scheduling then none
      else some { state with
        ledger := state.ledger.free r.request
        requests := state.requests.erase requestId }
  | .resetEncoderCache =>
    if state.scheduling then none else some { state with ledger := ⟨state.ledger.manager.reset, []⟩ }

end Scheduler

section Accounts

/-- The current call of `schedule()` has allocated every input with embeddings. -/
def Loaded (state : State) (request : EncoderRequest) : Prop :=
  ∀ inputId < request.mmFeatures.length, inputEmbeds request inputId = 0 ∨
    inputId ∈ ((state.scheduled.get? request.requestId).map plannedInputs).getD []

/-- The step frees the inputs of no request whose inputs are not allocated. -/
def FreesLoaded (state : State) : Step → Prop
  | .scheduleRunning _ _ preempted =>
    ∀ requestId ∈ preempted, ∀ r ∈ state.requests.get? requestId, Loaded state r.request
  | .scheduleWaiting requestId _ _ newBlocks =>
    newBlocks = false → ∀ r ∈ state.requests.get? requestId, Loaded state r.request
  | .updateAfterSchedule =>
    ∀ requestId ∈ state.scheduled.keys, ∀ r ∈ state.requests.get? requestId, Loaded state r.request
  | .finish requestId => ∀ r ∈ state.requests.get? requestId, Loaded state r.request
  | .addRequest _ | .schedule | .rejectTokens _ _ | .resetEncoderCache => True

structure Sound (cacheSize : Nat) (state : State) : Prop where
  balanced : Balanced cacheSize state.ledger
  named : ∀ requestId r, state.requests.get? requestId = some r → r.request.requestId = requestId
  held : ∀ requestId plan, state.scheduled.get? requestId = some plan →
    ∃ r, state.requests.get? requestId = some r ∧
      ∀ inputId ∈ plannedInputs plan, entry r.request inputId ∈ state.ledger.outstanding
  idle : state.scheduling = false → ∀ requestId, state.scheduled.get? requestId = none

variable {cacheSize : Nat} {state next : State} {requestId : ReqId} {r : ScheduledRequest}

theorem Sound.loaded (sound : Sound cacheSize state) (known : state.requests.get? requestId = some r)
    (loaded : Loaded state r.request) :
    ∀ inputId < r.request.mmFeatures.length, inputEmbeds r.request inputId = 0 ∨
      entry r.request inputId ∈ state.ledger.outstanding := by
  intro inputId within
  rcases loaded inputId within with zero | planned
  · exact Or.inl zero
  · rw [sound.named requestId r known] at planned
    cases found : state.scheduled.get? requestId with
    | none =>
      rw [found] at planned
      cases planned
    | some plan =>
      rw [found] at planned
      obtain ⟨other, known', listed⟩ := sound.held requestId plan found
      rw [known] at known'
      cases known'
      exact Or.inr (listed inputId planned)

theorem free_loaded (sound : Sound cacheSize state) (known : state.requests.get? requestId = some r)
    (loaded : Loaded state r.request) :
    Balanced cacheSize (state.ledger.free r.request) ∧
      state.ledger.manager.numFreeSlots ≤ (state.ledger.free r.request).manager.numFreeSlots ∧
      ∀ allocation ∈ state.ledger.outstanding, allocation.requestId ≠ r.request.requestId →
        allocation ∈ (state.ledger.free r.request).outstanding := by
  apply freeInputs_balanced sound.balanced nodup_range
  intro inputId member
  exact sound.loaded known loaded inputId (mem_range.mp member)

theorem preemptRequest_sound (sound : Sound cacheSize state)
    (loaded : ∀ r ∈ state.requests.get? requestId, Loaded state r.request)
    (ran : preemptRequest state requestId = some next) :
    Sound cacheSize next ∧ state.ledger.manager.numFreeSlots ≤ next.ledger.manager.numFreeSlots ∧
      next.scheduling = state.scheduling ∧ (∀ r ∈ next.requests.get? requestId, r.status = .preempted) ∧
      ∀ other, other ≠ requestId → next.requests.get? other = state.requests.get? other ∧
        next.scheduled.get? other = state.scheduled.get? other := by
  rw [preemptRequest] at ran
  cases known : state.requests.get? requestId with
  | none =>
    rw [known] at ran
    cases ran
  | some r =>
    rw [known] at ran
    dsimp only at ran
    split at ran
    · cases ran
      have own := sound.named requestId r known
      obtain ⟨balanced, more, others⟩ := free_loaded sound known (loaded r known)
      refine ⟨⟨balanced, ?_, ?_, ?_⟩, more, rfl, ?_, ?_⟩
      · intro other r' found
        rw [get?_set] at found
        split at found
        · rename_i same
          cases found
          exact own.trans same.symm
        · exact sound.named other r' found
      · intro other plan found
        rw [get?_erase] at found
        split at found
        · cases found
        · rename_i differs
          obtain ⟨r', known', listed⟩ := sound.held other plan found
          refine ⟨r', ?_, fun inputId member => others _ (listed inputId member) ?_⟩
          · rw [get?_set, if_neg differs]
            exact known'
          · change r'.request.requestId ≠ r.request.requestId
            rw [own, sound.named other r' known']
            exact differs
      · intro resting other
        rw [get?_erase, sound.idle resting other, ite_self]
      · intro r' found
        rw [get?_set, if_pos rfl] at found
        cases found
        rfl
      · intro other differs
        rw [get?_set, if_neg differs, get?_erase, if_neg differs]
        exact ⟨rfl, rfl⟩
    · cases ran

/-- A request is preempted at most once, as it does not run afterwards. -/
theorem preemptRequests_sound (preempted : List ReqId) (sound : Sound cacheSize state)
    (loaded : ∀ requestId ∈ preempted, ∀ r ∈ state.requests.get? requestId, r.status = .running →
      Loaded state r.request)
    (ran : preemptRequests preempted state = some next) :
    Sound cacheSize next ∧ state.ledger.manager.numFreeSlots ≤ next.ledger.manager.numFreeSlots ∧
      next.scheduling = state.scheduling := by
  induction preempted generalizing state with
  | nil =>
    cases ran
    exact ⟨sound, le_refl _, rfl⟩
  | cons requestId rest ih =>
    obtain ⟨middle, first, ran⟩ := bind_eq_some_iff.mp ran
    have running : ∀ r ∈ state.requests.get? requestId, r.status = .running := by
      intro r known
      rw [preemptRequest, known] at first
      dsimp only at first
      split at first
      · assumption
      · cases first
    obtain ⟨sound', more, phase, stopped, others⟩ := preemptRequest_sound sound
      (fun r known => loaded requestId mem_cons_self r known (running r known)) first
    obtain ⟨later, more', phase'⟩ := ih sound' (fun other member r known active => by
      by_cases same : other = requestId
      · rw [same] at known
        rw [stopped r known] at active
        cases active
      · have kept := others other same
        rw [kept.1] at known
        have loaded := loaded other (mem_cons_of_mem _ member) r known active
        have name := sound.named other r known
        rw [Loaded, name] at loaded ⊢
        rw [kept.2]
        exact loaded) ran
    exact ⟨later, le_trans more more', phase'.trans phase⟩

theorem scheduleRequest_sound (sound : Sound cacheSize state) {plan : Plan}
    (active : state.scheduling = true)
    (fits : embeds r.request (plannedInputs plan) ≤ state.ledger.manager.numFreeSlots)
    (ran : scheduleRequest state r plan = some next) : Sound cacheSize next := by
  obtain ⟨ledger, allocated, same⟩ := map_eq_some_iff.mp ran
  cases same
  have balanced := allocate_balanced sound.balanced fits allocated
  obtain ⟨_, _, outstanding⟩ := allocate_spec _ allocated
  constructor
  · exact balanced
  · intro other r' found
    rw [get?_set] at found
    split at found
    · rename_i same
      cases found
      exact same.symm
    · exact sound.named other r' found
  · intro other plan' found
    rw [get?_set] at found
    rw [get?_set]
    rw [outstanding]
    split at found
    · rename_i same
      cases found
      rw [if_pos same]
      exact ⟨r, rfl, fun inputId member => mem_append_right _ (List.mem_map_of_mem member)⟩
    · rename_i differs
      rw [if_neg differs]
      obtain ⟨r', known, listed⟩ := sound.held other plan' found
      exact ⟨r', known, fun inputId member => mem_append_left _ (listed inputId member)⟩
  · intro resting
    rw [active] at resting
    cases resting

/-- The loop at the end of `schedule()`: the inputs of the later requests stay
outstanding until it is their turn. -/
theorem advanceRequests_sound {entries : List (ReqId × Plan)} (balanced : Balanced cacheSize state.ledger)
    (named : ∀ requestId r, state.requests.get? requestId = some r → r.request.requestId = requestId)
    (once : (entries.map Prod.fst).Nodup)
    (held : ∀ scheduled ∈ entries, ∀ r ∈ state.requests.get? scheduled.1,
      ∀ inputId < r.request.mmFeatures.length, inputEmbeds r.request inputId = 0 ∨
        entry r.request inputId ∈ state.ledger.outstanding)
    (ran : advanceRequests entries state = some next) :
    Balanced cacheSize next.ledger ∧
      ∀ requestId r, next.requests.get? requestId = some r → r.request.requestId = requestId := by
  induction entries generalizing state with
  | nil =>
    cases ran
    exact ⟨balanced, named⟩
  | cons scheduled rest ih =>
    obtain ⟨requestId, plan⟩ := scheduled
    rw [advanceRequests] at ran
    obtain ⟨fresh, once⟩ := nodup_cons.mp once
    cases known : state.requests.get? requestId with
    | none =>
      rw [known] at ran
      cases ran
    | some r =>
      rw [known] at ran
      have own := named requestId r known
      obtain ⟨kept, _, others⟩ := freeInputs_balanced balanced
        (nodup_range.filter _) fun inputId member =>
          held (requestId, plan) mem_cons_self r known inputId
            (mem_range.mp (mem_filter.mp member).1)
      refine ih kept ?_ once ?_ ran
      · intro other r' found
        rw [get?_set] at found
        split at found
        · rename_i same
          cases found
          exact own.trans same.symm
        · exact named other r' found
      · intro scheduled member r' found inputId within
        have differs : scheduled.1 ≠ requestId := fun same =>
          fresh (List.mem_map.mpr ⟨scheduled, member, same⟩)
        rw [get?_set, if_neg differs] at found
        rcases held scheduled (mem_cons_of_mem _ member) r' found inputId within with zero | outstanding
        · exact Or.inl zero
        · refine Or.inr (others _ outstanding ?_)
          change r'.request.requestId ≠ r.request.requestId
          rw [own, named scheduled.1 r' found]
          exact differs

variable {config : SchedulerConfig}

/-- A step of a running request: its inputs were chosen before others were preempted. -/
theorem scheduleRunning_sound {numNewTokens : Nat} {preempted : List ReqId}
    (sound : Sound cacheSize state)
    (loaded : FreesLoaded state (.scheduleRunning requestId numNewTokens preempted))
    (ran : step config state (.scheduleRunning requestId numNewTokens preempted) = some next) :
    Sound cacheSize next := by
  obtain ⟨r, known, ran⟩ := bind_eq_some_iff.mp ran
  split at ran
  · rename_i fresh
    obtain ⟨⟨plan, manager⟩, tried, ran⟩ := bind_eq_some_iff.mp ran
    obtain ⟨_, tracks⟩ := tryScheduleEncoderInputs_tracks sound.balanced.nonneg tried
    have room := tracks.room
    rw [tracks.chosen] at room
    dsimp only at ran
    split at ran
    · cases ran
      exact sound
    · obtain ⟨middle, freed, ran⟩ := bind_eq_some_iff.mp ran
      obtain ⟨sound', more, phase⟩ := preemptRequests_sound preempted sound
        (fun other member r' found _ => loaded other member r' found) freed
      split at ran
      · cases ran
        exact sound'
      · exact scheduleRequest_sound sound' (phase.trans fresh.1) (le_trans room more) ran
  · cases ran

theorem scheduleWaiting_sound {numComputedTokens numNewTokens : Nat} {newBlocks : Bool}
    (sound : Sound cacheSize state)
    (loaded : FreesLoaded state (.scheduleWaiting requestId numComputedTokens numNewTokens
      newBlocks))
    (ran : step config state (.scheduleWaiting requestId numComputedTokens numNewTokens newBlocks) =
      some next) : Sound cacheSize next := by
  obtain ⟨r, known, ran⟩ := bind_eq_some_iff.mp ran
  split at ran
  · rename_i fresh
    obtain ⟨⟨plan, manager⟩, tried, ran⟩ := bind_eq_some_iff.mp ran
    obtain ⟨_, tracks⟩ := tryScheduleEncoderInputs_tracks sound.balanced.nonneg tried
    have room := tracks.room
    rw [tracks.chosen] at room
    dsimp only at ran
    split at ran
    · cases ran
      exact sound
    · split at ran
      · apply scheduleRequest_sound sound fresh.1 _ ran
        exact room
      · rename_i refused
        cases ran
        have own := sound.named requestId r known
        obtain ⟨balanced, _, others⟩ := free_loaded sound known
          (loaded (Bool.not_eq_true _ ▸ refused) r known)
        refine ⟨balanced, sound.named, fun other plan' found => ?_, sound.idle⟩
        obtain ⟨r', known', listed⟩ := sound.held other plan' found
        refine ⟨r', known', fun inputId member => others _ (listed inputId member) fun same => ?_⟩
        -- The refused request is not one of those in the step.
        have same : other = requestId := by
          rw [← sound.named other r' known', ← own]
          exact same
        rw [same] at found
        apply fresh.2.2
        rw [Dict.contains, found]
        rfl
  · cases ran

theorem updateAfterSchedule_sound (sound : Sound cacheSize state)
    (loaded : FreesLoaded state .updateAfterSchedule)
    (ran : step config state .updateAfterSchedule = some next) : Sound cacheSize next := by
  rw [step] at ran
  split at ran
  · obtain ⟨middle, advanced, ran⟩ := bind_eq_some_iff.mp ran
    cases ran
    have before : Balanced cacheSize
        { state.ledger with manager := state.ledger.manager.getFreedMmHashes.2 } :=
      ⟨sound.balanced.capacity, sound.balanced.free, sound.balanced.nonneg⟩
    obtain ⟨balanced, named⟩ : Balanced cacheSize middle.ledger ∧
        ∀ requestId r, middle.requests.get? requestId = some r → r.request.requestId = requestId := by
      apply advanceRequests_sound _ _ state.scheduled.unique _ advanced
      · exact before
      · exact sound.named
      · intro scheduled member r known
        exact sound.loaded known (loaded scheduled.1 (List.mem_map_of_mem member) r known)
    exact ⟨balanced, named, fun _ _ found => (by cases found), fun _ _ => rfl⟩
  · cases ran

theorem step_sound (sound : Sound cacheSize state) (taken : Step) (loaded : FreesLoaded state taken)
    (ran : step config state taken = some next) :
    Sound cacheSize next := by
  cases taken with
  | scheduleRunning requestId numNewTokens preempted => exact scheduleRunning_sound sound loaded ran
  | scheduleWaiting requestId numComputedTokens numNewTokens newBlocks =>
    exact scheduleWaiting_sound sound loaded ran
  | updateAfterSchedule => exact updateAfterSchedule_sound sound loaded ran
  | addRequest request =>
    rw [step] at ran
    split at ran
    · cases ran
    · rename_i fresh
      cases ran
      refine ⟨sound.balanced, fun other r' found => ?_, fun other plan found => ?_, sound.idle⟩
      · rw [get?_set] at found
        split at found
        · rename_i same
          cases found
          exact same.symm
        · exact sound.named other r' found
      · obtain ⟨r', known, listed⟩ := sound.held other plan found
        refine ⟨r', ?_, listed⟩
        rw [get?_set, if_neg]
        · exact known
        · intro same
          rw [same] at known
          apply fresh
          rw [Dict.contains, known]
          rfl
  | schedule =>
    rw [step] at ran
    split at ran
    · cases ran
    · cases ran
      exact ⟨sound.balanced, sound.named, fun _ _ found => (by cases found), fun _ _ => rfl⟩
  | rejectTokens requestId numRejected =>
    obtain ⟨r, known, ran⟩ := bind_eq_some_iff.mp ran
    split at ran
    · cases ran
    · cases ran
      have own := sound.named requestId r known
      refine ⟨sound.balanced, fun other r' found => ?_, fun other plan found => ?_, sound.idle⟩
      · rw [get?_set] at found
        split at found
        · rename_i same
          cases found
          exact own.trans same.symm
        · exact sound.named other r' found
      · obtain ⟨r', known', listed⟩ := sound.held other plan found
        rw [get?_set]
        split
        · rename_i same
          rw [same, known] at known'
          cases known'
          exact ⟨_, rfl, listed⟩
        · exact ⟨r', known', listed⟩
  | finish requestId =>
    obtain ⟨r, known, ran⟩ := bind_eq_some_iff.mp ran
    split at ran
    · cases ran
    · rename_i resting
      cases ran
      obtain ⟨balanced, _, _⟩ := free_loaded sound known (loaded r known)
      have empty := sound.idle (Bool.not_eq_true _ ▸ resting)
      refine ⟨balanced, fun other r' found => ?_, fun other plan found => ?_, fun _ => empty⟩
      · rw [get?_erase] at found
        split at found
        · cases found
        · exact sound.named other r' found
      · rw [empty other] at found
        cases found
  | resetEncoderCache =>
    rw [step] at ran
    split at ran
    · cases ran
    · rename_i resting
      cases ran
      have empty := sound.idle (Bool.not_eq_true _ ▸ resting)
      have capacity := sound.balanced.capacity
      refine ⟨⟨capacity, ?_, ?_⟩, sound.named, fun other plan found => ?_, fun _ => empty⟩
      · simp [EncoderDecoderCacheManager.reset, Ledger.owed, capacity]
      · simp [EncoderDecoderCacheManager.reset]
      · rw [empty other] at found
        cases found

theorem init_sound (cacheSize : Nat) : Sound cacheSize (.init cacheSize) := by
  constructor
  · constructor
    · rfl
    · simp [State.init, EncoderDecoderCacheManager.init, Ledger.owed]
    · simp [State.init, EncoderDecoderCacheManager.init]
  · intro _ _ found
    cases found
  · intro _ _ found
    cases found
  · exact fun _ _ => rfl

end Accounts

section Runs

/-- The states that the scheduler reaches by allowed steps. -/
inductive Reachable (config : SchedulerConfig) (allowed : State → Step → Prop) (cacheSize : Nat) :
    State → Prop
  | init : Reachable config allowed cacheSize (.init cacheSize)
  | step {state next : State} {taken : Step} (reached : Reachable config allowed cacheSize state)
      (permitted : allowed state taken) (ran : step config state taken = some next) :
      Reachable config allowed cacheSize next

variable {config : SchedulerConfig}

theorem reachable_sound {cacheSize : Nat} {state : State}
    (reached : Reachable config FreesLoaded cacheSize state) : Sound cacheSize state := by
  induction reached with
  | init => exact init_sound cacheSize
  | step _ permitted ran ih => exact step_sound ih _ permitted ran

/-- As long as every step frees only what is allocated, the free slots are those that
are left by the inputs allocated and not yet freed. -/
theorem reachable_counts (config : SchedulerConfig) (cacheSize : Nat) (state : State)
    (reached : Reachable config FreesLoaded cacheSize state) :
    0 ≤ state.ledger.manager.numFreeSlots ∧ state.ledger.manager.numFreeSlots ≤ cacheSize ∧
      state.ledger.manager.numFreeSlots = cacheSize - state.ledger.owed := by
  have balanced := (reachable_sound reached).balanced
  have free := balanced.free
  have nonneg := balanced.nonneg
  omega

instance (state : State) (request : EncoderRequest) : Decidable (Loaded state request) :=
  inferInstanceAs (Decidable (∀ inputId < request.mmFeatures.length, _))

instance (state : State) (taken : Step) : Decidable (FreesLoaded state taken) :=
  match taken with
  | .scheduleRunning _ _ preempted => inferInstanceAs (Decidable
      (∀ requestId ∈ preempted, ∀ r ∈ state.requests.get? requestId, Loaded state r.request))
  | .scheduleWaiting requestId _ _ newBlocks => inferInstanceAs (Decidable
      (newBlocks = false → ∀ r ∈ state.requests.get? requestId, Loaded state r.request))
  | .updateAfterSchedule => inferInstanceAs (Decidable
      (∀ requestId ∈ state.scheduled.keys, ∀ r ∈ state.requests.get? requestId, Loaded state r.request))
  | .finish requestId => inferInstanceAs (Decidable
      (∀ r ∈ state.requests.get? requestId, Loaded state r.request))
  | .addRequest _ | .schedule | .rejectTokens _ _ | .resetEncoderCache => inferInstanceAs (Decidable True)

def runSteps (config : SchedulerConfig) (allowed : State → Step → Prop)
    [∀ state taken, Decidable (allowed state taken)] : State → List Step → Option State
  | state, [] => some state
  | state, taken :: rest =>
    if allowed state taken then (step config state taken).bind fun next => runSteps config allowed next rest
    else none

theorem runSteps_reachable {allowed : State → Step → Prop}
    [∀ state taken, Decidable (allowed state taken)] {cacheSize : Nat} {state last : State}
    (steps : List Step) (reached : Reachable config allowed cacheSize state)
    (ran : runSteps config allowed state steps = some last) :
    Reachable config allowed cacheSize last := by
  induction steps generalizing state with
  | nil =>
    cases ran
    exact reached
  | cons taken rest ih =>
    rw [runSteps] at ran
    split at ran
    · rename_i permitted
      obtain ⟨next, first, later⟩ := bind_eq_some_iff.mp ran
      exact ih (.step reached permitted first) later
    · cases ran

def sampleConfig : SchedulerConfig := ⟨false, none, false, 8⟩

/-- A request with a recording of four embeddings. -/
def recording : EncoderRequest := ⟨1, [⟨"audio", ⟨0, 4, none⟩⟩]⟩

/-- The prompt is computed in one step. -/
def firstStep : List Step :=
  [.addRequest recording, .schedule, .scheduleWaiting 1 0 3 true, .updateAfterSchedule]

/-- One token is decoded after that. -/
def secondStep : List Step := [.schedule, .scheduleRunning 1 1 [], .updateAfterSchedule]

theorem firstStep_runs : (runSteps sampleConfig FreesLoaded (.init 10) firstStep).isSome = true := by
  decide +kernel

theorem firstStep_counts :
    ((runSteps sampleConfig FreesLoaded (.init 10) firstStep).get firstStep_runs).ledger.manager.numFreeSlots
      ≤ (10 : Nat) :=
  (reachable_counts sampleConfig 10 _
    (runSteps_reachable firstStep .init (some_get firstStep_runs).symm)).2.1

theorem secondStep_runs :
    (runSteps sampleConfig (fun _ _ => True) (.init 10) (firstStep ++ secondStep)).isSome = true := by
  decide +kernel

/-- After the second step the cache has fourteen of its ten slots free. -/
theorem secondStep_overflows : ∃ state, Reachable sampleConfig (fun _ _ => True) 10 state ∧
    ¬ state.ledger.manager.numFreeSlots ≤ (10 : Nat) := by
  refine ⟨_, runSteps_reachable _ .init (some_get secondStep_runs).symm, ?_⟩
  decide +kernel

end Runs
end VllmDcu.EncoderDecoderRuns

import VllmDcu.EncoderAccounts

/-! The worker's copy of the encoder cache. A step tells the worker what was evicted since the step before it
and which inputs to encode; steps and resets may wait for the worker. -/
namespace VllmDcu.EncoderMirror
open Requests EncoderCache EncoderAccounts Dict List

/-- What a step sends: the evicted hashes and those of `scheduled_encoder_inputs`. -/
structure SchedulerOutput where
  freeEncoderMmHashes : List String
  mmHashes : List String

inductive Message
  | executeModel (output : SchedulerOutput)
  | resetEncoderCache

/-- The keys of the worker's cache after `_update_states` and `_execute_mm_encoder`, or after its reset. -/
def handle (encoderCache : List String) : Message → List String
  | .executeModel output =>
    (encoderCache.filter fun mmHash => mmHash ∉ output.freeEncoderMmHashes) ++ output.mmHashes
  | .resetEncoderCache => []

structure System where
  scheduler : State
  /-- allocated since the last output, with their requests -/
  scheduledEncoderInputs : List (ReqId × String)
  inFlight : List Message
  encoderCache : List String

inductive Step
  | call (made : Call)
  | schedule
  /-- PRIORITY preempts a request that this step has scheduled; `free` is a call of its own -/
  | pop (requestId : ReqId)
  | work

/-- The hash that a call allocates. -/
def allocated : Call → List (ReqId × String)
  | .allocate request inputId =>
    (request.mmFeatures[inputId]?.map fun feature => (request.requestId, feature.identifier)).toList
  | _ => []

/-- `EngineCore.reset_encoder_cache` clears the worker's cache as well. -/
def resets : Call → List Message
  | .reset => [.resetEncoderCache]
  | _ => []

/-- The output takes `get_freed_mm_hashes()`. -/
def System.output (system : System) : SchedulerOutput :=
  ⟨system.scheduler.manager.freed, system.scheduledEncoderInputs.map Prod.snd⟩

/-- What the worker holds when it has handled all messages, a step that is made now as well. -/
def System.received (system : System) : List String :=
  (system.inFlight ++ [Message.executeModel system.output]).foldl handle system.encoderCache

def System.init (cacheSize : Nat) : System := ⟨⟨.init cacheSize, []⟩, [], [], []⟩

def step (system : System) : Step → Option System
  | .call made => (call system.scheduler made).map fun scheduler =>
      { system with
        scheduler := scheduler
        scheduledEncoderInputs := system.scheduledEncoderInputs ++ allocated made
        inFlight := system.inFlight ++ resets made }
  | .schedule => some
      { system with
        scheduler := { system.scheduler with
          manager := { system.scheduler.manager with freed := [] } }
        scheduledEncoderInputs := []
        inFlight := system.inFlight ++ [.executeModel system.output] }
  | .pop requestId => some
      { system with
        scheduledEncoderInputs := system.scheduledEncoderInputs.filter fun input => input.1 ≠ requestId }
  | .work =>
    match system.inFlight with
    | [] => none
    | message :: rest => some
        { system with
          inFlight := rest
          encoderCache := handle system.encoderCache message }

/-- A preempted request takes back no inputs of this step. FCFS preempts none that is scheduled. -/
def Keeps (system : System) : Step → Prop
  | .pop requestId => ∀ input ∈ system.scheduledEncoderInputs, input.1 ≠ requestId
  | _ => True

inductive Reachable (cacheSize : Nat) : System → Prop
  | init : Reachable cacheSize (.init cacheSize)
  | step {system next : System} (reached : Reachable cacheSize system) (taken : Step)
      (keeps : Keeps system taken) (stepped : step system taken = some next) : Reachable cacheSize next

/-- What a run of calls adds to the cache is allocated, and what it evicts is announced. -/
def Follows (before after : EncoderCacheManager) (added : List String) : Prop :=
  ∀ mmHash ∈ after.cached.keys, mmHash ∈ added ∨
    mmHash ∈ before.cached.keys ∧ (mmHash ∈ after.freed → mmHash ∈ before.freed)

theorem evictOldest_follows (numEmbeds : Nat) (entries : List (String × Nat))
    (self next : EncoderCacheManager) (evicted : EncoderCacheManager.evictOldest numEmbeds entries self = some next) :
    Follows self next [] := by
  induction entries generalizing self with
  | nil =>
    rw [EncoderCacheManager.evictOldest] at evicted
    grind [Follows]
  | cons entry rest ih =>
    rw [EncoderCacheManager.evictOldest] at evicted
    split at evicted
    · cases evicted
      exact fun _ cached => .inr ⟨cached, id⟩
    · split at evicted
      · have later := ih _ evicted
        grind [Follows, mem_keys_erase]
      · contradiction

theorem freeEncoderInput_follows (self : EncoderCacheManager) (request : EncoderRequest)
    (feature : Requests.MultiModalFeatureSpec) : Follows self (self.freeEncoderInput request feature) [] := by
  unfold EncoderCacheManager.freeEncoderInput
  grind [Follows, mem_keys_set, mem_keys_iff]

theorem freeInputs_follows (request : EncoderRequest) (inputIds : List Nat) (self : EncoderCacheManager) :
    Follows self (self.freeInputs request inputIds) [] := by
  induction inputIds generalizing self with
  | nil => exact fun _ cached => .inr ⟨cached, id⟩
  | cons inputId rest ih =>
    rw [EncoderCacheManager.freeInputs, foldl_cons]
    split
    · exact ih self
    · have first := freeEncoderInput_follows self request
      have later := ih (self.freeEncoderInput request ‹_›)
      unfold EncoderCacheManager.freeInputs at later
      grind [Follows]

theorem call_follows (state next : State) (made : Call) (called : call state made = some next) :
    Follows state.manager next.manager ((allocated made).map Prod.snd) := by
  cases made with
  | checkAndUpdateCache request inputId =>
    obtain ⟨feature, _, called⟩ := Option.bind_eq_some_iff.mp called
    obtain ⟨⟨hit, manager⟩, checked, same⟩ := Option.bind_eq_some_iff.mp called
    cases same
    unfold EncoderCacheManager.checkAndUpdateCache at checked
    grind [Follows, mem_keys_set, mem_keys_iff]
  | canAllocate request inputId encoderComputeBudget choose =>
    obtain ⟨feature, _, called⟩ := Option.bind_eq_some_iff.mp called
    obtain ⟨⟨answer, manager⟩, asked, same⟩ := Option.bind_eq_some_iff.mp called
    cases same
    unfold EncoderCacheManager.canAllocate at asked
    have evicted := evictOldest_follows (feature.mmPosition.getNumEmbeds + batchEmbeds state.batch)
      state.manager.freeable.entries state.manager
    grind [Follows, Option.map_eq_some_iff]
  | allocate request inputId =>
    obtain ⟨feature, named, called⟩ := Option.bind_eq_some_iff.mp called
    obtain ⟨manager, taken, same⟩ := Option.bind_eq_some_iff.mp called
    cases same
    unfold EncoderCacheManager.allocate at taken
    grind [Follows, mem_keys_set, allocated]
  | freeEncoderInput request inputId =>
    obtain ⟨feature, _, same⟩ := Option.bind_eq_some_iff.mp called
    cases same
    exact freeEncoderInput_follows _ _ _
  | free request order =>
    cases called
    exact freeInputs_follows _ _ _
  | begin =>
    cases called
    exact fun _ cached => .inr ⟨cached, id⟩
  | reset =>
    cases called
    exact fun _ cached => (not_mem_nil cached).elim

/-- What is cached is new or on its way to the worker, and no step announces it as evicted. -/
def Mirrors (system : System) : Prop :=
  ∀ mmHash ∈ system.scheduler.manager.cached.keys, mmHash ∈ system.scheduledEncoderInputs.map Prod.snd ∨
    mmHash ∈ system.inFlight.foldl handle system.encoderCache ∧ mmHash ∉ system.scheduler.manager.freed

theorem Mirrors.output {system : System} (mirrors : Mirrors system) :
    system.scheduler.manager.cached.keys ⊆ system.received := by
  intro mmHash cached
  have := mirrors mmHash cached
  simp only [System.received, foldl_append, foldl_cons, foldl_nil, handle, System.output, mem_append,
    mem_filter, decide_eq_true_eq]
  grind

theorem step_mirrors {system next : System} (mirrors : Mirrors system) (taken : Step)
    (keeps : Keeps system taken) (stepped : step system taken = some next) : Mirrors next := by
  cases taken with
  | call made =>
    obtain ⟨scheduler, called, rfl⟩ := Option.map_eq_some_iff.mp stepped
    intro mmHash cached
    have follows := call_follows _ _ made called mmHash cached
    have := mirrors mmHash
    have silent : resets made = [] := by
      cases made with
      | reset =>
        cases called
        exact (not_mem_nil cached).elim
      | _ => rfl
    simp only [silent, append_nil, map_append, mem_append]
    grind
  | schedule =>
    cases stepped
    exact fun mmHash cached => .inr ⟨mirrors.output cached, not_mem_nil⟩
  | pop requestId =>
    cases stepped
    have same : system.scheduledEncoderInputs.filter (fun input => input.1 ≠ requestId) =
        system.scheduledEncoderInputs :=
      filter_eq_self.mpr fun input listed => decide_eq_true (keeps input listed)
    unfold Mirrors
    rw [same]
    exact mirrors
  | work =>
    rw [step] at stepped
    split at stepped
    · contradiction
    · rename_i message rest flight
      cases stepped
      unfold Mirrors at mirrors
      rw [flight] at mirrors
      exact mirrors

/-- The worker handles what it gets in order. When it has executed a step it holds all encoder outputs that
were cached as that step was made. -/
theorem worker_mirrors (cacheSize : Nat) (system : System) (reached : Reachable cacheSize system) :
    system.scheduler.manager.cached.keys ⊆ system.received := by
  suffices mirrors : Mirrors system from mirrors.output
  induction reached with
  | init => exact fun _ cached => (not_mem_nil cached).elim
  | step _ taken keeps stepped ih => exact step_mirrors ih taken keeps stepped

theorem onePhoto_mirrors : ∃ system, Reachable 10 system ∧
    system.scheduler.manager.cached.keys ⊆ system.received :=
  have reached : Reachable 10 _ :=
    .step (.step (.step (.step .init (.call (.canAllocate (sampleRequest 1) 0 10 true)) trivial rfl)
      (.call (.allocate (sampleRequest 1) 0)) trivial rfl) .schedule trivial rfl) (.pop 1) nofun rfl
  ⟨_, reached, worker_mirrors 10 _ reached⟩

/-- A popped input stays cached for the scheduler, and the worker never gets it. -/
example : ([.call (.canAllocate (sampleRequest 1) 0 10 true), .call (.allocate (sampleRequest 1) 0),
    .pop 1].foldlM step (.init 10)).map (fun system =>
      (system.scheduler.manager.cached.keys.length, system.received)) = some (1, []) := by rfl

end VllmDcu.EncoderMirror

import VllmDcu.EncoderCache

/-! The accounts of the encoder cache. The size of an entry is that of its hash;
the two counters, the order of freeable entries and the reference sets agree in
every state that the operations reach, in any order and over any requests. -/
namespace VllmDcu.EncoderAccounts
open Requests EncoderCache List Option Dict

section Weights
variable {Value : Type}

/-- The total size of the entries of a dictionary. -/
def weight (size : String → Nat) (entries : Dict String Value) : Nat := ∑ key ∈ entries.keys.toFinset, size key

section
variable (size : String → Nat)
include size

theorem weight_empty : weight size (Dict.empty : Dict String Value) = 0 := rfl

theorem weight_set_new {entries : Dict String Value} {key : String} (value : Value)
    (absent : key ∉ entries.keys) : weight size (entries.set key value) = weight size entries + size key := by
  have keys : (entries.set key value).keys.toFinset = insert key entries.keys.toFinset := by
    ext other
    simp
  rw [weight, keys, Finset.sum_insert (by simpa using absent), Nat.add_comm]
  rfl

theorem weight_set_old {entries : Dict String Value} {key : String} {value : Value}
    (present : key ∈ entries.keys) : weight size (entries.set key value) = weight size entries := by
  have keys : (entries.set key value).keys.toFinset = entries.keys.toFinset := by
    ext other
    simp only [List.mem_toFinset, mem_keys_set]
    exact or_iff_right_of_imp fun same => same ▸ present
  rw [weight, keys]
  rfl

theorem weight_erase {entries : Dict String Value} {key : String}
    (present : key ∈ entries.keys) : weight size (entries.erase key) + size key = weight size entries := by
  have keys : (entries.erase key).keys.toFinset = entries.keys.toFinset.erase key := by
    ext other
    simp
  rw [weight, keys]
  exact Finset.sum_erase_add _ _ (by simpa using present)

end

theorem weight_mono {Value' : Type} (size : String → Nat) {entries : Dict String Value}
    {entries' : Dict String Value'} (subset : ∀ key ∈ entries.keys, key ∈ entries'.keys) :
    weight size entries ≤ weight size entries' := by
  apply Finset.sum_le_sum_of_subset
  intro key member
  simpa using subset key (by simpa using member)

end Weights

/-- All of a request's features have the size of their identifiers. -/
def Sized (size : String → Nat) (feature : MultiModalFeatureSpec) : Prop :=
  feature.mmPosition.getNumEmbeds = size feature.identifier

structure Accounted (size : String → Nat) (cacheSize : Nat) (manager : EncoderCacheManager) : Prop where
  capacity : manager.cacheSize = cacheSize
  free : manager.numFreeSlots + weight size manager.cached = cacheSize
  freeable : manager.numFreeableSlots = manager.numFreeSlots + weight size manager.freeable
  sizes : ∀ mmHash numEmbeds, manager.freeable.get? mmHash = some numEmbeds → numEmbeds = size mmHash
  unreferenced : ∀ mmHash, mmHash ∈ manager.freeable.keys ↔ manager.cached.get? mmHash = some ∅
  nonneg : 0 ≤ manager.numFreeSlots

variable {size : String → Nat} {cacheSize : Nat} {manager : EncoderCacheManager}

theorem Accounted.freeable_cached (accounted : Accounted size cacheSize manager) {mmHash : String}
    (member : mmHash ∈ manager.freeable.keys) : mmHash ∈ manager.cached.keys :=
  (mem_keys_iff _ _).mpr ⟨∅, (accounted.unreferenced mmHash).mp member⟩

/-- What can be freed is never more than the cache holds. -/
theorem Accounted.bounds (accounted : Accounted size cacheSize manager) :
    manager.numFreeSlots ≤ manager.numFreeableSlots ∧ manager.numFreeableSlots ≤ cacheSize := by
  have within := weight_mono size fun _ => accounted.freeable_cached
  have free := accounted.free
  have freeable := accounted.freeable
  omega

theorem init_accounted (size : String → Nat) (cacheSize : Nat) :
    Accounted size cacheSize (.init cacheSize) := by
  constructor <;> simp [EncoderCacheManager.init, weight_empty, mem_keys_iff]

section
variable (accounted : Accounted size cacheSize manager)
include accounted

theorem reset_accounted : Accounted size cacheSize manager.reset := by
  have capacity := accounted.capacity
  constructor <;> simp [EncoderCacheManager.reset, weight_empty, mem_keys_iff, capacity]

theorem checkAndUpdateCache_accounted (request : EncoderRequest) (feature : MultiModalFeatureSpec) :
    ∃ hit next, manager.checkAndUpdateCache request feature = some (hit, next) ∧
      Accounted size cacheSize next ∧ next.numFreeSlots = manager.numFreeSlots := by
  rw [EncoderCacheManager.checkAndUpdateCache]
  cases found : manager.cached.get? feature.identifier with
  | none => exact ⟨_, _, rfl, accounted, rfl⟩
  | some references =>
    have present : feature.identifier ∈ manager.cached.keys := (mem_keys_iff _ _).mpr ⟨_, found⟩
    dsimp only
    split
    · rename_i empty
      rw [empty] at found
      have waiting := (accounted.unreferenced _).mpr found
      obtain ⟨numEmbeds, known⟩ := (mem_keys_iff _ _).mp waiting
      have sized := accounted.sizes _ _ known
      have lighter := weight_erase size waiting
      have freeable := accounted.freeable
      rw [known]
      refine ⟨_, _, rfl, ?_, rfl⟩
      constructor
      · exact accounted.capacity
      · rw [weight_set_old size present]
        exact accounted.free
      · dsimp only
        omega
      · intro mmHash numEmbeds known
        rw [get?_erase] at known
        split at known
        · cases known
        · exact accounted.sizes _ _ known
      · intro mmHash
        rw [mem_keys_erase, get?_set, accounted.unreferenced]
        split
        · rename_i same
          simp [same]
        · rename_i other
          simp [other]
      · exact accounted.nonneg
    · rename_i referenced
      refine ⟨_, _, rfl, ?_, rfl⟩
      constructor
      · exact accounted.capacity
      · rw [weight_set_old size present]
        exact accounted.free
      · exact accounted.freeable
      · exact accounted.sizes
      · intro mmHash
        rw [get?_set, accounted.unreferenced]
        split
        · rename_i same
          simp [same, found, referenced]
        · rfl
      · exact accounted.nonneg

/-- Popping the oldest freeable entry moves its size to the free slots. -/
theorem evict_accounted {mmHash : String}
    {numFreeEmbeds : Nat} (known : manager.freeable.get? mmHash = some numFreeEmbeds) :
    Accounted size cacheSize { manager with
      freeable := manager.freeable.erase mmHash
      cached := manager.cached.erase mmHash
      freed := manager.freed ++ [mmHash]
      numFreeSlots := manager.numFreeSlots + numFreeEmbeds } := by
  have waiting : mmHash ∈ manager.freeable.keys := (mem_keys_iff _ _).mpr ⟨_, known⟩
  have sized := accounted.sizes _ _ known
  have lighter := weight_erase size waiting
  have emptier := weight_erase size (accounted.freeable_cached waiting)
  have free := accounted.free
  have freeable := accounted.freeable
  have nonneg := accounted.nonneg
  constructor
  · exact accounted.capacity
  · dsimp only
    omega
  · dsimp only
    omega
  · intro other numEmbeds found
    rw [get?_erase] at found
    split at found
    · cases found
    · exact accounted.sizes _ _ found
  · intro other
    rw [mem_keys_erase, get?_erase, accounted.unreferenced]
    split
    · rename_i same
      simp [same]
    · rename_i different
      simp [different]
  · dsimp only
    omega

end

/-- As long as what is needed can be freed, the loop finds an entry to pop. -/
theorem evictOldest_accounted {entries : List (String × Nat)} (accounted : Accounted size cacheSize manager)
    (listed : manager.freeable.entries = entries) (numEmbeds : Nat)
    (enough : numEmbeds ≤ manager.numFreeableSlots) :
    ∃ next, EncoderCacheManager.evictOldest numEmbeds entries manager = some next ∧
      Accounted size cacheSize next ∧ manager.numFreeSlots ≤ next.numFreeSlots ∧
      numEmbeds ≤ next.numFreeSlots := by
  induction entries generalizing manager with
  | nil =>
    have none : weight size manager.freeable = 0 := by
      rw [weight, Dict.keys, listed]
      rfl
    have freeable := accounted.freeable
    rw [EncoderCacheManager.evictOldest, if_pos (by omega)]
    exact ⟨_, rfl, accounted, le_refl _, by omega⟩
  | cons entry rest ih =>
    obtain ⟨mmHash, numFreeEmbeds⟩ := entry
    rw [EncoderCacheManager.evictOldest]
    split
    · rename_i fits
      exact ⟨_, rfl, accounted, le_refl _, fits⟩
    · have known : manager.freeable.get? mmHash = some numFreeEmbeds := by
        rw [get?_eq_some_iff, listed]
        exact mem_cons_self
      have waiting : mmHash ∈ manager.freeable.keys := (mem_keys_iff _ _).mpr ⟨_, known⟩
      have cached : manager.cached.contains mmHash = true := by
        rw [Dict.contains, (accounted.unreferenced _).mp waiting]
        rfl
      rw [if_pos cached]
      obtain ⟨next, evicted, kept, more, fits⟩ := ih (evict_accounted accounted known) (entries_erase_head listed) enough
      exact ⟨next, evicted, kept, by dsimp only at more; omega, fits⟩

section
variable (accounted : Accounted size cacheSize manager)
include accounted

theorem canAllocate_accounted
    (feature : MultiModalFeatureSpec) (encoderComputeBudget numEmbedsToSchedule : Nat) :
    ∃ answer next, manager.canAllocate feature encoderComputeBudget numEmbedsToSchedule =
        some (answer, next) ∧ Accounted size cacheSize next ∧
      manager.numFreeSlots ≤ next.numFreeSlots ∧
      (answer = true → feature.mmPosition.getNumEmbeds ≤ encoderComputeBudget ∧
        (feature.mmPosition.getNumEmbeds + numEmbedsToSchedule : Nat) ≤ next.numFreeSlots) := by
  rw [EncoderCacheManager.canAllocate]
  split
  · exact ⟨_, _, rfl, accounted, le_refl _, fun no => (by cases no)⟩
  · split
    · rename_i fits
      exact ⟨_, _, rfl, accounted, le_refl _, fun _ => ⟨by omega, fits⟩⟩
    · split
      · exact ⟨_, _, rfl, accounted, le_refl _, fun no => (by cases no)⟩
      · obtain ⟨next, evicted, kept, more, fits⟩ :=
          evictOldest_accounted accounted rfl
            (feature.mmPosition.getNumEmbeds + numEmbedsToSchedule) (by omega)
        rw [evicted]
        exact ⟨_, _, rfl, kept, more, fun _ => ⟨by omega, fits⟩⟩

/-- Space that was answered for suffices, if the hash is new. -/
theorem allocate_accounted (request : EncoderRequest)
    (feature : MultiModalFeatureSpec) (sized : Sized size feature)
    (absent : manager.cached.get? feature.identifier = none)
    (fits : feature.mmPosition.getNumEmbeds ≤ manager.numFreeSlots) :
    ∃ next, manager.allocate request feature = some next ∧ Accounted size cacheSize next ∧
      next.numFreeSlots = manager.numFreeSlots - feature.mmPosition.getNumEmbeds := by
  have fresh : feature.identifier ∉ manager.cached.keys := by
    rw [mem_keys_iff, absent]
    rintro ⟨_, found⟩
    cases found
  have heavier := weight_set_new size
    (insert request.requestId ((manager.cached.get? feature.identifier).getD ∅)) fresh
  have free := accounted.free
  have freeable := accounted.freeable
  rw [Sized] at sized
  rw [EncoderCacheManager.allocate, if_pos ⟨fits, by omega⟩]
  refine ⟨_, rfl, ?_, rfl⟩
  constructor
  · exact accounted.capacity
  · dsimp only
    omega
  · dsimp only
    omega
  · exact accounted.sizes
  · intro mmHash
    rw [get?_set, accounted.unreferenced]
    split
    · rename_i same
      simp [same, absent]
    · rfl
  · dsimp only
    omega

theorem freeEncoderInput_accounted
    {request : EncoderRequest} {feature : MultiModalFeatureSpec} (sized : Sized size feature) :
    Accounted size cacheSize (manager.freeEncoderInput request feature) ∧
      (manager.freeEncoderInput request feature).numFreeSlots = manager.numFreeSlots := by
  rw [EncoderCacheManager.freeEncoderInput]
  cases found : manager.cached.get? feature.identifier with
  | none => exact ⟨accounted, rfl⟩
  | some references =>
    have present : feature.identifier ∈ manager.cached.keys := (mem_keys_iff _ _).mpr ⟨_, found⟩
    dsimp only
    split
    · exact ⟨accounted, rfl⟩
    · rename_i referenced
      split
      · have held : feature.identifier ∉ manager.freeable.keys := by
          rw [accounted.unreferenced, found]
          intro same
          exact referenced (some.inj same)
        have heavier := weight_set_new size feature.mmPosition.getNumEmbeds held
        have freeable := accounted.freeable
        rw [Sized] at sized
        refine ⟨?_, rfl⟩
        constructor
        · exact accounted.capacity
        · rw [weight_set_old size present]
          exact accounted.free
        · dsimp only
          omega
        · intro mmHash numEmbeds known
          rw [get?_set] at known
          split at known
          · rename_i same
            cases known
            rw [same, sized]
          · exact accounted.sizes _ _ known
        · intro mmHash
          rw [mem_keys_set, get?_set, accounted.unreferenced]
          split
          · rename_i same
            simp [same]
          · rename_i other
            simp [other]
        · exact accounted.nonneg
      · rename_i remaining
        refine ⟨?_, rfl⟩
        constructor
        · exact accounted.capacity
        · rw [weight_set_old size present]
          exact accounted.free
        · exact accounted.freeable
        · exact accounted.sizes
        · intro mmHash
          rw [get?_set, accounted.unreferenced]
          split
          · rename_i same
            simp [same, found, referenced, remaining]
          · rfl
        · exact accounted.nonneg

theorem freeInputs_accounted {request : EncoderRequest}
    (sized : ∀ feature ∈ request.mmFeatures, Sized size feature) {inputIds : List Nat} :
    Accounted size cacheSize (manager.freeInputs request inputIds) ∧
      (manager.freeInputs request inputIds).numFreeSlots = manager.numFreeSlots := by
  induction inputIds generalizing manager with
  | nil => exact ⟨accounted, rfl⟩
  | cons inputId rest ih =>
    rw [EncoderCacheManager.freeInputs, foldl_cons]
    cases named : request.mmFeatures[inputId]? with
    | none => exact ih accounted
    | some feature =>
      obtain ⟨kept, same⟩ := freeEncoderInput_accounted accounted
        (sized feature (mem_of_getElem? named))
      obtain ⟨later, same'⟩ := ih kept
      exact ⟨later, same'.trans same⟩

end

section Runs

/-- Calls of the cache. `canAllocate` is told what its batch has chosen before, and
`choose` says whether an affirmed input joins the batch; `begin` opens a new one. -/
inductive Call
  | checkAndUpdateCache (request : EncoderRequest) (inputId : Nat)
  | begin
  | canAllocate (request : EncoderRequest) (inputId encoderComputeBudget : Nat) (choose : Bool)
  | allocate (request : EncoderRequest) (inputId : Nat)
  | freeEncoderInput (request : EncoderRequest) (inputId : Nat)
  | free (request : EncoderRequest) (order : List Nat)
  | reset

/-- The cache and the inputs of the current batch that wait for their allocation. -/
structure State where
  manager : EncoderCacheManager
  batch : List (EncoderRequest × MultiModalFeatureSpec)

def batchEmbeds (batch : List (EncoderRequest × MultiModalFeatureSpec)) : Nat :=
  (batch.map fun chosen => chosen.2.mmPosition.getNumEmbeds).sum

/-- The call on the manager; there is no result when it raises. -/
def call (state : State) : Call → Option State
  | .checkAndUpdateCache request inputId => do
      let feature ← request.mmFeatures[inputId]?
      let (_, manager) ← state.manager.checkAndUpdateCache request feature
      some { state with manager := manager }
  | .begin => some { state with batch := [] }
  | .canAllocate request inputId encoderComputeBudget choose => do
      let feature ← request.mmFeatures[inputId]?
      let (answer, manager) ←
        state.manager.canAllocate feature encoderComputeBudget (batchEmbeds state.batch)
      some ⟨manager, if answer && choose then state.batch ++ [(request, feature)] else state.batch⟩
  | .allocate request inputId => do
      let feature ← request.mmFeatures[inputId]?
      let manager ← state.manager.allocate request feature
      some ⟨manager, state.batch.erase (request, feature)⟩
  | .freeEncoderInput request inputId => do
      let feature ← request.mmFeatures[inputId]?
      some { state with manager := state.manager.freeEncoderInput request feature }
  | .free request order => some { state with manager := state.manager.free request order }
  | .reset => some { state with manager := state.manager.reset }

/-- The input is one of a request whose features have the sizes of their hashes. -/
def Names (size : String → Nat) (request : EncoderRequest) (inputId : Nat) : Prop :=
  inputId < request.mmFeatures.length ∧ ∀ feature ∈ request.mmFeatures, Sized size feature

/-- An input is allocated only as part of its batch and when its hash is not cached. -/
def Allowed (size : String → Nat) (state : State) : Call → Prop
  | .checkAndUpdateCache request inputId => Names size request inputId
  | .begin => True
  | .canAllocate request inputId _ _ => Names size request inputId
  | .allocate request inputId => Names size request inputId ∧
      ∀ feature ∈ request.mmFeatures[inputId]?,
        (request, feature) ∈ state.batch ∧ state.manager.cached.get? feature.identifier = none
  | .freeEncoderInput request inputId => Names size request inputId
  | .free request _ => ∀ feature ∈ request.mmFeatures, Sized size feature
  | .reset => True

inductive Reachable (size : String → Nat) (cacheSize : Nat) : State → Prop
  | init : Reachable size cacheSize ⟨.init cacheSize, []⟩
  | step {state next : State} {made : Call} (reached : Reachable size cacheSize state)
      (allowed : Allowed size state made) (called : call state made = some next) :
      Reachable size cacheSize next

structure Sound (size : String → Nat) (cacheSize : Nat) (state : State) : Prop where
  accounted : Accounted size cacheSize state.manager
  fits : batchEmbeds state.batch ≤ state.manager.numFreeSlots

theorem Names.feature {request : EncoderRequest} {inputId : Nat} (names : Names size request inputId) :
    ∃ feature, request.mmFeatures[inputId]? = some feature ∧ Sized size feature := by
  have named := getElem?_eq_getElem names.1
  exact ⟨_, named, names.2 _ (getElem_mem names.1)⟩

theorem batchEmbeds_erase {batch : List (EncoderRequest × MultiModalFeatureSpec)}
    {chosen : EncoderRequest × MultiModalFeatureSpec} (member : chosen ∈ batch) :
    batchEmbeds (batch.erase chosen) + chosen.2.mmPosition.getNumEmbeds = batchEmbeds batch := by
  have split := ((perm_cons_erase member).map fun chosen : EncoderRequest × MultiModalFeatureSpec =>
    chosen.2.mmPosition.getNumEmbeds).sum_eq
  rw [map_cons, sum_cons] at split
  rw [batchEmbeds, batchEmbeds, split, Nat.add_comm]

variable {state : State}

/-- An allowed call never raises, and the accounts are right after it. -/
theorem call_sound (sound : Sound size cacheSize state) (made : Call)
    (allowed : Allowed size state made) :
    ∃ next, call state made = some next ∧ Sound size cacheSize next := by
  obtain ⟨accounted, fits⟩ := sound
  cases made with
  | checkAndUpdateCache request inputId =>
    obtain ⟨feature, named, _⟩ := allowed.feature
    obtain ⟨hit, next, checked, kept, same⟩ := checkAndUpdateCache_accounted accounted request feature
    refine ⟨{ state with manager := next }, ?_, kept, ?_⟩
    · simp only [call, named, checked, bind_eq_bind, bind_some]
    · dsimp only
      omega
  | begin => exact ⟨_, rfl, accounted, accounted.nonneg⟩
  | canAllocate request inputId encoderComputeBudget choose =>
    obtain ⟨feature, named, _⟩ := allowed.feature
    obtain ⟨answer, next, asked, kept, more, room⟩ :=
      canAllocate_accounted accounted feature encoderComputeBudget (batchEmbeds state.batch)
    refine ⟨⟨next, if answer && choose then state.batch ++ [(request, feature)] else state.batch⟩, ?_,
      kept, ?_⟩
    · simp only [call, named, asked, bind_eq_bind, bind_some]
    · dsimp only
      split
      · rename_i both
        rw [Bool.and_eq_true] at both
        have room := (room both.1).2
        rw [batchEmbeds, map_append, sum_append, ← batchEmbeds]
        simp only [map_cons, map_nil, sum_cons, sum_nil]
        omega
      · omega
  | allocate request inputId =>
    obtain ⟨names, ready⟩ := allowed
    obtain ⟨feature, named, sized⟩ := names.feature
    obtain ⟨chosen, absent⟩ := ready feature named
    have rest := batchEmbeds_erase chosen
    obtain ⟨next, allocated, kept, taken⟩ :=
      allocate_accounted accounted request feature sized absent (by dsimp only at rest; omega)
    refine ⟨⟨next, state.batch.erase (request, feature)⟩, ?_, kept, ?_⟩
    · simp only [call, named, allocated, bind_eq_bind, bind_some]
    · dsimp only at rest ⊢
      omega
  | freeEncoderInput request inputId =>
    obtain ⟨feature, named, sized⟩ := allowed.feature
    obtain ⟨kept, same⟩ := freeEncoderInput_accounted accounted sized
    refine ⟨{ state with manager := state.manager.freeEncoderInput request feature }, ?_, kept, ?_⟩
    · simp only [call, named, bind_eq_bind, bind_some]
    · dsimp only
      omega
  | free request order =>
    obtain ⟨kept, same⟩ := freeInputs_accounted accounted allowed
    refine ⟨_, rfl, kept, ?_⟩
    dsimp only [EncoderCacheManager.free]
    omega
  | reset =>
    have below := accounted.bounds
    have capacity := accounted.capacity
    refine ⟨_, rfl, reset_accounted accounted, ?_⟩
    dsimp only [EncoderCacheManager.reset]
    omega

theorem reachable_sound (reached : Reachable size cacheSize state) :
    Sound size cacheSize state := by
  induction reached with
  | init => exact ⟨init_accounted size cacheSize, Int.natCast_nonneg cacheSize⟩
  | step _ allowed called ih =>
    obtain ⟨next, called', sound⟩ := call_sound ih _ allowed
    rw [called] at called'
    cases called'
    exact sound

/-- In every reachable state the counters are those of the entries, and no allowed
call pops from an empty dictionary or fails an assertion. -/
theorem cache_accounted (size : String → Nat) (cacheSize : Nat) (state : State)
    (reached : Reachable size cacheSize state) :
    state.manager.numFreeSlots + weight size state.manager.cached = cacheSize ∧
      state.manager.numFreeableSlots = state.manager.numFreeSlots + weight size state.manager.freeable ∧
      (∀ mmHash, mmHash ∈ state.manager.freeable.keys ↔ state.manager.cached.get? mmHash = some ∅) ∧
      0 ≤ state.manager.numFreeSlots ∧
      state.manager.numFreeSlots ≤ state.manager.numFreeableSlots ∧
      state.manager.numFreeableSlots ≤ cacheSize ∧
      ∀ made, Allowed size state made → (call state made).isSome = true := by
  have sound := reachable_sound reached
  have accounted := sound.accounted
  refine ⟨accounted.free, accounted.freeable, accounted.unreferenced, accounted.nonneg,
    accounted.bounds.1, accounted.bounds.2, fun made allowed => ?_⟩
  obtain ⟨next, called, _⟩ := call_sound sound made allowed
  rw [called]
  rfl

instance (size : String → Nat) (feature : MultiModalFeatureSpec) : Decidable (Sized size feature) :=
  inferInstanceAs (Decidable (_ = _))

instance (size : String → Nat) (request : EncoderRequest) (inputId : Nat) :
    Decidable (Names size request inputId) := inferInstanceAs (Decidable (_ ∧ _))

instance (size : String → Nat) (state : State) (made : Call) : Decidable (Allowed size state made) :=
  match made with
  | .checkAndUpdateCache request inputId => inferInstanceAs (Decidable (Names size request inputId))
  | .begin => inferInstanceAs (Decidable True)
  | .canAllocate request inputId _ _ => inferInstanceAs (Decidable (Names size request inputId))
  | .allocate request inputId => inferInstanceAs (Decidable (Names size request inputId ∧
      ∀ feature ∈ request.mmFeatures[inputId]?,
        (request, feature) ∈ state.batch ∧ state.manager.cached.get? feature.identifier = none))
  | .freeEncoderInput request inputId => inferInstanceAs (Decidable (Names size request inputId))
  | .free request _ => inferInstanceAs (Decidable (∀ feature ∈ request.mmFeatures, Sized size feature))
  | .reset => inferInstanceAs (Decidable True)

/-- A run of allowed calls. -/
def runCalls (size : String → Nat) : State → List Call → Option State
  | state, [] => some state
  | state, made :: rest =>
    if Allowed size state made then (call state made).bind fun next => runCalls size next rest else none

theorem runCalls_reachable {last : State} (calls : List Call)
    (reached : Reachable size cacheSize state) (ran : runCalls size state calls = some last) :
    Reachable size cacheSize last := by
  induction calls generalizing state with
  | nil =>
    cases ran
    exact reached
  | cons made rest ih =>
    rw [runCalls] at ran
    split at ran
    · rename_i allowed
      obtain ⟨next, called, later⟩ := bind_eq_some_iff.mp ran
      exact ih (.step reached allowed called) later
    · cases ran

def sampleSize (mmHash : String) : Nat := if mmHash = "photo" then 4 else 7

/-- A request for two images that has one of them twice. -/
def sampleRequest (requestId : ReqId) : EncoderRequest :=
  ⟨requestId, [⟨"photo", ⟨0, 4, none⟩⟩, ⟨"chart", ⟨6, 7, none⟩⟩, ⟨"photo", ⟨20, 4, none⟩⟩]⟩

/-- The photo is cached, shared, freed by both requests and evicted for the chart. -/
def sampleCalls : List Call :=
  [.begin, .canAllocate (sampleRequest 1) 0 10 true, .allocate (sampleRequest 1) 0,
    .checkAndUpdateCache (sampleRequest 2) 2, .freeEncoderInput (sampleRequest 1) 0,
    .free (sampleRequest 2) [2, 0, 1], .freeEncoderInput (sampleRequest 2) 0,
    .begin, .canAllocate (sampleRequest 2) 1 10 true, .allocate (sampleRequest 2) 1]

theorem sampleCalls_run : (runCalls sampleSize ⟨.init 10, []⟩ sampleCalls).isSome = true := by
  decide +kernel

def sampleState : State := (runCalls sampleSize ⟨.init 10, []⟩ sampleCalls).get sampleCalls_run

theorem sampleState_accounted :
    sampleState.manager.numFreeSlots + weight sampleSize sampleState.manager.cached = (10 : Nat) ∧
      sampleState.manager.numFreeableSlots =
        sampleState.manager.numFreeSlots + weight sampleSize sampleState.manager.freeable :=
  have reached : Reachable sampleSize 10 sampleState :=
    runCalls_reachable sampleCalls .init (some_get sampleCalls_run).symm
  have accounts := cache_accounted sampleSize 10 sampleState reached
  ⟨accounts.1, accounts.2.1⟩

end Runs
end VllmDcu.EncoderAccounts

import VllmDcu.EncoderAccounts
import VllmDcu.EncoderScheduling

/-! Which embeddings of a step are provided for by its encoder plan. The drafter
reads a range that is shifted by one token; the last test of the loop looks at the
range without the shift. -/
namespace VllmDcu.EncoderCoverage
open Requests EncoderCache EncoderAccounts EncoderScheduling
open List hiding lookup
open Option Dict

/-- The placeholder has an embedding at the position of the prompt. -/
def EmbedAt (range : PlaceholderRange) (position : Nat) : Prop :=
  range.offset ≤ position ∧ position < range.offset + range.length ∧
    ∀ mask ∈ range.isEmbed, mask[position - range.offset]? = some true

/-- A mask has one entry for each token of the placeholder. -/
def Shaped (range : PlaceholderRange) : Prop := ∀ mask ∈ range.isEmbed, mask.length = range.length

theorem countP_take_lt {mask : List Bool} {start index stop : Nat} (marked : mask[index]? = some true)
    (after : start ≤ index) (before : index < stop) :
    (mask.take start).countP id < (mask.take stop).countP id := by
  have smaller : (mask.take start).countP id ≤ (mask.take index).countP id :=
    (take_prefix_take_left after).sublist.countP_le
  have larger : (mask.take (index + 1)).countP id ≤ (mask.take stop).countP id :=
    (take_prefix_take_left before).sublist.countP_le
  have next : (mask.take (index + 1)).countP id = (mask.take index).countP id + 1 := by
    rw [take_add_one, marked, countP_append]
    rfl
  omega

/-- The range of the loop counts every embedding that the target reads in it. -/
theorem embedsInRange_ne {feature : MultiModalFeatureSpec} (shaped : Shaped feature.mmPosition)
    {numComputedTokens numNewTokens position : Nat} (reads : EmbedAt feature.mmPosition position)
    (after : numComputedTokens ≤ position) (before : position < numComputedTokens + numNewTokens) :
    (embedsInRange numComputedTokens numNewTokens feature).2 -
      (embedsInRange numComputedTokens numNewTokens feature).1 ≠ 0 := by
  obtain ⟨behind, within, marked⟩ := reads
  rw [embedsInRange, PlaceholderRange.getEmbedsIndicesInRange]
  cases masked : feature.mmPosition.isEmbed with
  | none =>
    dsimp only
    omega
  | some mask =>
    have length := shaped mask (by rw [masked]; rfl)
    have here := marked mask (by rw [masked]; rfl)
    generalize feature.mmPosition.offset = offset at *
    generalize feature.mmPosition.length = total at *
    -- The two indices as natural numbers.
    obtain ⟨start, startIs⟩ : ∃ start : Nat, max 0 ((numComputedTokens : Int) - offset) = start :=
      ⟨_, (Int.toNat_of_nonneg (by omega)).symm⟩
    obtain ⟨stop, stopIs⟩ : ∃ stop : Nat,
        min (total : Int) (numComputedTokens + numNewTokens - offset) = stop + 1 :=
      ⟨(min (total : Int) (numComputedTokens + numNewTokens - offset) - 1).toNat, by omega⟩
    have fewer : (mask.take start).countP id < (mask.take (stop + 1)).countP id :=
      countP_take_lt here (by omega) (by omega)
    rw [startIs, stopIs]
    dsimp only
    have stopCount : cumsumAt mask ((stop : Int) + 1 - 1) = ((mask.take (stop + 1)).countP id : Nat) := by
      rw [cumsumAt]
      congr 4
      omega
    have startCount : (if (start : Int) > 0 then cumsumAt mask ((start : Int) - 1) else 0) =
        ((mask.take start).countP id : Nat) := by
      split
      · rw [cumsumAt]
        congr 4
        omega
      · have zero : start = 0 := by omega
        rw [zero]
        rfl
    omega

section Lookups
variable {size : String → Nat} {cacheSize : Nat} {manager next last : EncoderCacheManager}

/-- The hash is cached and the request is one of those that refer to it. -/
def Referenced (manager : EncoderCacheManager) (request : EncoderRequest) (mmHash : String) : Prop :=
  ∃ references, manager.cached.get? mmHash = some references ∧ request.requestId ∈ references

/-- Nothing joined the cache, and what the request refers to is still there. -/
structure Later (request : EncoderRequest) (manager next : EncoderCacheManager) : Prop where
  cached : ∀ mmHash ∈ next.cached.keys, mmHash ∈ manager.cached.keys
  referenced : ∀ mmHash, Referenced manager request mmHash → Referenced next request mmHash

variable (request : EncoderRequest)

theorem Later.refl (manager : EncoderCacheManager) : Later request manager manager :=
  ⟨fun _ member => member, fun _ refers => refers⟩

theorem Later.trans {request : EncoderRequest} (first : Later request manager next)
    (second : Later request next last) : Later request manager last :=
  ⟨fun mmHash member => first.cached mmHash (second.cached mmHash member),
    fun mmHash refers => second.referenced mmHash (first.referenced mmHash refers)⟩

theorem Referenced.cached {request : EncoderRequest} {mmHash : String}
    (refers : Referenced manager request mmHash) : mmHash ∈ manager.cached.keys := by
  obtain ⟨references, found, _⟩ := refers
  exact (mem_keys_iff _ _).mpr ⟨references, found⟩

/-- Setting the references of a cached hash to a larger set. -/
theorem later_set {request : EncoderRequest} {mmHash : String} {references larger : Finset ReqId}
    (found : manager.cached.get? mmHash = some references) (subset : references ⊆ larger)
    (set : next.cached = manager.cached.set mmHash larger) : Later request manager next := by
  constructor
  · intro other member
    rw [set, mem_keys_set] at member
    rcases member with same | old
    · rw [same]
      exact (mem_keys_iff _ _).mpr ⟨references, found⟩
    · exact old
  · intro other refers
    rw [Referenced, set]
    by_cases same : other = mmHash
    · subst same
      obtain ⟨known, found', member⟩ := refers
      rw [found] at found'
      cases found'
      exact ⟨larger, by rw [get?_set, if_pos rfl], subset member⟩
    · rw [get?_set, if_neg same]
      exact refers

theorem checkAndUpdateCache_later {request : EncoderRequest} {feature : MultiModalFeatureSpec} {hit : Bool}
    (checked : manager.checkAndUpdateCache request feature = some (hit, next)) :
    Later request manager next ∧ (hit = true → Referenced next request feature.identifier) ∧
      (hit = false → feature.identifier ∉ next.cached.keys) := by
  rw [EncoderCacheManager.checkAndUpdateCache] at checked
  cases found : manager.cached.get? feature.identifier with
  | none =>
    rw [found] at checked
    cases checked
    refine ⟨.refl _ _, fun yes => (by cases yes), fun _ member => ?_⟩
    rw [mem_keys_iff, found] at member
    obtain ⟨_, absurd⟩ := member
    cases absurd
  | some references =>
    rw [found] at checked
    dsimp only at checked
    split at checked
    · rename_i empty
      split at checked
      · cases checked
      · cases checked
        refine ⟨later_set found (by simp [empty]) rfl, fun _ => ?_, fun no => (by cases no)⟩
        exact ⟨_, by rw [get?_set, if_pos rfl], Finset.mem_singleton_self _⟩
    · cases checked
      refine ⟨later_set found (Finset.subset_insert _ _) rfl, fun _ => ?_, fun no => (by cases no)⟩
      exact ⟨_, by rw [get?_set, if_pos rfl], Finset.mem_insert_self _ _⟩

/-- Only entries without references are popped. -/
theorem evictOldest_later (entries : List (String × Nat))
    (accounted : Accounted size cacheSize manager) (listed : manager.freeable.entries = entries)
    {numEmbeds : Nat}
    (evicted : EncoderCacheManager.evictOldest numEmbeds entries manager = some next) :
    Later request manager next := by
  induction entries generalizing manager with
  | nil =>
    rw [EncoderCacheManager.evictOldest] at evicted
    split at evicted
    · cases evicted
      exact .refl _ _
    · cases evicted
  | cons entry rest ih =>
    obtain ⟨mmHash, numFreeEmbeds⟩ := entry
    rw [EncoderCacheManager.evictOldest] at evicted
    split at evicted
    · cases evicted
      exact .refl _ _
    · split at evicted
      · have known : manager.freeable.get? mmHash = some numFreeEmbeds := by
          rw [get?_eq_some_iff, listed]
          exact mem_cons_self
        have unreferenced : manager.cached.get? mmHash = some ∅ :=
          (accounted.unreferenced _).mp ((mem_keys_iff _ _).mpr ⟨_, known⟩)
        have popped : Later request manager { manager with
            freeable := manager.freeable.erase mmHash
            cached := manager.cached.erase mmHash
            freed := manager.freed ++ [mmHash]
            numFreeSlots := manager.numFreeSlots + numFreeEmbeds } := by
          constructor
          · intro other member
            rw [mem_keys_erase] at member
            exact member.2
          · rintro other ⟨references, found, member⟩
            refine ⟨references, ?_, member⟩
            rw [get?_erase, if_neg]
            · exact found
            · intro same
              rw [same, unreferenced] at found
              cases found
              exact absurd member (Finset.notMem_empty _)
        exact popped.trans (ih (evict_accounted accounted known) (entries_erase_head listed) evicted)
      · cases evicted

theorem canAllocate_later (accounted : Accounted size cacheSize manager)
    {feature : MultiModalFeatureSpec} {encoderComputeBudget numEmbedsToSchedule : Nat}
    {answer : Bool}
    (asked : manager.canAllocate feature encoderComputeBudget numEmbedsToSchedule = some (answer,
      next)) :
    Later request manager next := by
  rw [EncoderCacheManager.canAllocate] at asked
  split at asked
  · cases asked
    exact .refl _ _
  · split at asked
    · cases asked
      exact .refl _ _
    · split at asked
      · cases asked
        exact .refl _ _
      · obtain ⟨evicted, run, same⟩ := map_eq_some_iff.mp asked
        cases same
        exact evictOldest_later request _ accounted rfl run

end Lookups

section Rounds

variable {size : String → Nat} {cacheSize : Nat} {manager : EncoderCacheManager}
  {request : EncoderRequest} {encoderComputeBudget : Nat} {plan : Plan}

/-- What a round of the loop leaves behind, by the way it ends. -/
def Turned (request : EncoderRequest) (numComputedTokens shiftComputedTokens : Nat)
    (feature : MultiModalFeatureSpec) (plan after : Plan) (next : EncoderCacheManager) : Turn → Prop
  | .leave => after.numNewTokens ≤ plan.numNewTokens ∧ (0 < after.numNewTokens →
      numComputedTokens + after.numNewTokens + shiftComputedTokens ≤ feature.mmPosition.offset)
  | .skip => after = plan ∧
      (feature.mmPosition.offset + feature.mmPosition.length ≤ numComputedTokens ∨
        feature.identifier ∈ plan.mmHashesToSchedule ∨ Referenced next request feature.identifier)
  | .passOver => after = plan ∧ feature.identifier ∉ plan.mmHashesToSchedule ∧
      feature.identifier ∉ next.cached.keys ∧
      (embedsInRange numComputedTokens plan.numNewTokens feature).2 -
        (embedsInRange numComputedTokens plan.numNewTokens feature).1 = 0
  | .take => after.numNewTokens = plan.numNewTokens ∧ feature.identifier ∈ after.mmHashesToSchedule

structure Round (size : String → Nat) (cacheSize : Nat) (request : EncoderRequest)
    (encoderComputeBudget : Nat) (plan after : Plan) (manager next : EncoderCacheManager) : Prop where
  accounted : Accounted size cacheSize next
  tracks : Tracks request encoderComputeBudget next.numFreeSlots after
  later : Later request manager next
  kept : ∀ mmHash ∈ plan.mmHashesToSchedule, mmHash ∈ after.mmHashesToSchedule

theorem lookup_round (accounted : Accounted size cacheSize manager) {config : Config}
    (decoderOnly : config.isEncoderDecoder = false)
    (tracks : Tracks request encoderComputeBudget manager.numFreeSlots plan) (feature : MultiModalFeatureSpec) :
    ∃ hit next, lookup encoderCacheMethods config request feature plan manager = some (hit, next) ∧
      Round size cacheSize request encoderComputeBudget plan plan manager next ∧
      (hit = true → feature.identifier ∈ plan.mmHashesToSchedule ∨
        Referenced next request feature.identifier) ∧
      (hit = false → feature.identifier ∉ plan.mmHashesToSchedule ∧
        feature.identifier ∉ next.cached.keys) := by
  rw [lookup, if_neg (by simp [decoderOnly])]
  split
  · rename_i chosen
    rw [contains_iff_mem] at chosen
    exact ⟨_, _, rfl, ⟨accounted, tracks, .refl _ _, fun _ member => member⟩, fun _ => Or.inl chosen,
      fun no => (by cases no)⟩
  · rename_i fresh
    rw [contains_iff_mem] at fresh
    obtain ⟨hit, next, checked, kept, same⟩ := checkAndUpdateCache_accounted accounted request feature
    obtain ⟨later, found, missed⟩ := checkAndUpdateCache_later checked
    have tracks := tracks.mono (le_of_eq same.symm) plan.numNewTokens
    exact ⟨hit, next, checked, ⟨kept, tracks, later, fun _ member => member⟩,
      fun yes => Or.inr (found yes), fun no => ⟨fresh, missed no⟩⟩

/-- A round never raises; its trackers stay right, and the turn says what became of the input. -/
theorem planInput_round (accounted : Accounted size cacheSize manager) {config : Config}
    (decoderOnly : config.isEncoderDecoder = false)
    (tracks : Tracks request encoderComputeBudget manager.numFreeSlots plan) {feature : MultiModalFeatureSpec}
    {inputId : Nat} (named : request.mmFeatures[inputId]? = some feature)
    (numComputedTokens shiftComputedTokens : Nat) :
    ∃ turn after next, planInput encoderCacheMethods config request numComputedTokens
        shiftComputedTokens feature inputId plan manager = some (turn, after, next) ∧
      Round size cacheSize request encoderComputeBudget plan after manager next ∧
      Turned request numComputedTokens shiftComputedTokens feature plan after next turn := by
  have stay : Round size cacheSize request encoderComputeBudget plan plan manager manager :=
    ⟨accounted, tracks, .refl _ _, fun _ member => member⟩
  rw [planInput]
  split
  · rename_i beyond
    exact ⟨_, _, _, rfl, stay, le_refl _, fun _ => beyond⟩
  · rw [if_neg (by simp [decoderOnly])]
    split
    · rename_i computed
      exact ⟨_, _, _, rfl, stay, rfl, Or.inl computed⟩
    · obtain ⟨hit, looked, found, round, yes, no⟩ := lookup_round accounted decoderOnly tracks feature
      rw [found]
      cases hit with
      | true => exact ⟨_, _, _, rfl, round, rfl, Or.inr (yes rfl)⟩
      | false =>
        obtain ⟨fresh, missed⟩ := no rfl
        dsimp only
        split
        · -- Rolled back to before the input.
          refine ⟨_, _, _, rfl, ⟨round.accounted, round.tracks.mono (le_refl _) _, round.later,
            round.kept⟩, ?_, ?_⟩
          · dsimp only
            omega
          · dsimp only
            omega
        · obtain ⟨answer, next, asked, kept, more, granted⟩ :=
            canAllocate_accounted round.accounted feature plan.encoderComputeBudget
              plan.numEmbedsToSchedule
          have later := round.later.trans (canAllocate_later request round.accounted asked)
          have asked' : encoderCacheMethods.canAllocate looked feature plan.encoderComputeBudget
              plan.numEmbedsToSchedule = some (answer, next) := asked
          rw [asked']
          cases answer with
          | false =>
            refine ⟨_, _, _, rfl, ⟨kept, round.tracks.mono more _, later, round.kept⟩, ?_, ?_⟩
            · dsimp only
              split <;> omega
            · dsimp only
              split <;> omega
          | true =>
            obtain ⟨affordable, fits⟩ := granted rfl
            have held := round.tracks.mono more plan.numNewTokens
            dsimp only
            split
            · rename_i noEmbeds
              refine ⟨_, _, _, rfl, ⟨kept, held, later, round.kept⟩, rfl, fresh, ?_, noEmbeds⟩
              intro member
              have shrunk := (canAllocate_later request round.accounted asked).cached
              exact missed (shrunk _ member)
            · refine ⟨_, _, _, rfl, ⟨kept, held.add named affordable fits, later, ?_⟩,
                add_numNewTokens, ?_⟩
              · exact fun mmHash member => (mem_add config plan feature inputId mmHash).mpr (Or.inl member)
              · exact (mem_add config plan feature inputId _).mpr (Or.inr rfl)

end Rounds

section Runs

/-- The features that the loop leaves out because they have no embeddings in its range. -/
def passedOver {Manager : Type} (methods : CacheMethods Manager) (config : Config)
    (request : EncoderRequest) (numComputedTokens shiftComputedTokens : Nat) :
    List (MultiModalFeatureSpec × Nat) → Plan → Manager → List MultiModalFeatureSpec
  | [], _, _ => []
  | (feature, inputId) :: rest, plan, manager =>
    match planInput methods config request numComputedTokens shiftComputedTokens feature inputId
        plan manager with
    | none => []
    | some (.leave, _, _) => []
    | some (.passOver, plan, manager) =>
      feature :: passedOver methods config request numComputedTokens shiftComputedTokens rest plan manager
    | some (_, plan, manager) =>
      passedOver methods config request numComputedTokens shiftComputedTokens rest plan manager

/-- None of the features has an embedding where only the drafter reads. -/
def SparesShift (numComputedTokens numNewTokens shiftComputedTokens : Nat)
    (features : List MultiModalFeatureSpec) : Prop :=
  ∀ feature ∈ features, ∀ position, numComputedTokens + numNewTokens ≤ position →
    position < numComputedTokens + numNewTokens + shiftComputedTokens →
    ¬ EmbedAt feature.mmPosition position

variable {size : String → Nat} {cacheSize : Nat} {request : EncoderRequest} {encoderComputeBudget : Nat}
  {config : Config} {numComputedTokens shiftComputedTokens : Nat}

theorem Round.trans {plan middle after : Plan} {manager next last : EncoderCacheManager}
    (first : Round size cacheSize request encoderComputeBudget plan middle manager next)
    (second : Round size cacheSize request encoderComputeBudget middle after next last) :
    Round size cacheSize request encoderComputeBudget plan after manager last :=
  ⟨second.accounted, second.tracks, first.later.trans second.later,
    fun mmHash member => second.kept mmHash (first.kept mmHash member)⟩

def Provided (request : EncoderRequest) (plan : Plan) (manager : EncoderCacheManager)
    (feature : MultiModalFeatureSpec) : Prop :=
  feature.identifier ∈ plan.mmHashesToSchedule ∨ Referenced manager request feature.identifier

/-- The features that the step reads from are provided for. -/
def Covers (request : EncoderRequest) (numComputedTokens shiftComputedTokens : Nat) (plan : Plan)
    (manager : EncoderCacheManager) (feature : MultiModalFeatureSpec) : Prop :=
  ∀ position, numComputedTokens ≤ position →
    position < numComputedTokens + plan.numNewTokens + shiftComputedTokens →
    EmbedAt feature.mmPosition position → Provided request plan manager feature

/-- A run of the loop that did not raise. -/
structure Settled (size : String → Nat) (cacheSize : Nat) (request : EncoderRequest)
    (encoderComputeBudget : Nat) (config : Config) (numComputedTokens shiftComputedTokens : Nat)
    (rest : List (MultiModalFeatureSpec × Nat)) (plan after : Plan)
    (manager next : EncoderCacheManager) : Prop where
  ran : planInputs encoderCacheMethods config request numComputedTokens shiftComputedTokens rest plan
    manager = some (after, next)
  round : Round size cacheSize request encoderComputeBudget plan after manager next
  less : after.numNewTokens ≤ plan.numNewTokens
  covers : SparesShift numComputedTokens plan.numNewTokens shiftComputedTokens
      (passedOver encoderCacheMethods config request numComputedTokens shiftComputedTokens rest plan manager) →
    0 < after.numNewTokens →
    ∀ entry ∈ rest, Covers request numComputedTokens shiftComputedTokens after next entry.1

/-- A round that goes on and provides for its own input. -/
theorem Settled.cons {feature : MultiModalFeatureSpec} {inputId : Nat}
    {rest : List (MultiModalFeatureSpec × Nat)} {plan middle after : Plan}
    {manager between next : EncoderCacheManager}
    (settled : Settled size cacheSize request encoderComputeBudget config numComputedTokens
      shiftComputedTokens rest middle after between next)
    (round : Round size cacheSize request encoderComputeBudget plan middle manager between)
    (goesOn : planInputs encoderCacheMethods config request numComputedTokens shiftComputedTokens
        ((feature, inputId) :: rest) plan manager =
      planInputs encoderCacheMethods config request numComputedTokens shiftComputedTokens rest middle between)
    (same : middle.numNewTokens = plan.numNewTokens)
    (spared : SparesShift numComputedTokens plan.numNewTokens shiftComputedTokens
        (passedOver encoderCacheMethods config request numComputedTokens shiftComputedTokens
          ((feature, inputId) :: rest) plan manager) →
      SparesShift numComputedTokens plan.numNewTokens shiftComputedTokens
        (passedOver encoderCacheMethods config request numComputedTokens shiftComputedTokens
          rest middle between) ∧
      Covers request numComputedTokens shiftComputedTokens middle between feature) :
    Settled size cacheSize request encoderComputeBudget config numComputedTokens shiftComputedTokens
      ((feature, inputId) :: rest) plan after manager next := by
  have less := settled.less
  have covers := settled.covers
  rw [same] at less covers
  constructor
  · exact goesOn.trans settled.ran
  · exact round.trans settled.round
  · exact less
  · intro spares positive entry member
    obtain ⟨spares, own⟩ := spared spares
    rcases mem_cons.mp member with rfl | inRest
    · intro position reached before reads
      rcases own position reached (by omega) reads with chosen | referenced
      · exact Or.inl (settled.round.kept _ chosen)
      · exact Or.inr (settled.round.later.referenced _ referenced)
    · exact covers spares positive entry inRest

/-- The run never raises, and what was not passed over wrongly is provided for. -/
theorem planInputs_settled (decoderOnly : config.isEncoderDecoder = false)
    (rest : List (MultiModalFeatureSpec × Nat)) {plan : Plan} {manager : EncoderCacheManager}
    (accounted : Accounted size cacheSize manager)
    (tracks : Tracks request encoderComputeBudget manager.numFreeSlots plan)
    (listed : ∀ entry ∈ rest, request.mmFeatures[entry.2]? = some entry.1)
    (sorted : rest.Pairwise fun first second => first.1.mmPosition.offset ≤ second.1.mmPosition.offset)
    (shaped : ∀ entry ∈ rest, Shaped entry.1.mmPosition) :
    ∃ after next, Settled size cacheSize request encoderComputeBudget config numComputedTokens
      shiftComputedTokens rest plan after manager next := by
  induction rest generalizing plan manager with
  | nil =>
    refine ⟨plan, manager, rfl, ⟨accounted, tracks, .refl _ _, fun _ member => member⟩, le_refl _, ?_⟩
    intro _ _ entry member
    cases member
  | cons entry rest ih =>
    obtain ⟨feature, inputId⟩ := entry
    obtain ⟨earlier, sorted⟩ := pairwise_cons.mp sorted
    have listed' := fun entry member => listed entry (mem_cons_of_mem _ member)
    have shaped' := fun entry member => shaped entry (mem_cons_of_mem _ member)
    obtain ⟨turn, middle, between, turned, round, result⟩ := planInput_round accounted decoderOnly
      tracks (listed (feature, inputId) mem_cons_self) numComputedTokens shiftComputedTokens
    dsimp only at turned result
    obtain ⟨after, next, settled⟩ := ih round.accounted round.tracks listed' sorted shaped'
    cases turn with
    | leave =>
      obtain ⟨less, stops⟩ := result
      refine ⟨middle, between, by rw [planInputs, turned], round, less, ?_⟩
      intro _ positive entry member position reached before reads
      have behind := reads.1
      rcases mem_cons.mp member with rfl | inRest
      · dsimp only at behind
        omega
      · have after := earlier entry inRest
        dsimp only at after
        omega
    | skip =>
      obtain ⟨rfl, reason⟩ := result
      refine ⟨after, next, settled.cons round (by rw [planInputs, turned]) rfl fun spares => ?_⟩
      rw [passedOver, turned] at spares
      refine ⟨spares, fun position reached before reads => ?_⟩
      rcases reason with computed | held
      · have within := reads.2.1
        omega
      · exact held
    | passOver =>
      obtain ⟨rfl, _, _, noEmbeds⟩ := result
      refine ⟨after, next, settled.cons round (by rw [planInputs, turned]) rfl fun spares => ?_⟩
      rw [passedOver, turned] at spares
      refine ⟨fun other member => spares other (mem_cons_of_mem _ member), ?_⟩
      intro position reached before reads
      by_cases inside : position < numComputedTokens + middle.numNewTokens
      · exact absurd noEmbeds
          (embedsInRange_ne (shaped (feature, inputId) mem_cons_self) reads reached inside)
      · exact absurd reads (spares feature mem_cons_self position (by omega) before)
    | take =>
      obtain ⟨same, chosen⟩ := result
      refine ⟨after, next, settled.cons round (by rw [planInputs, turned]) same fun spares => ?_⟩
      rw [passedOver, turned] at spares
      exact ⟨spares, fun _ _ _ _ => Or.inl chosen⟩

theorem planInput_beyond {config : Config} {request : EncoderRequest} {feature : MultiModalFeatureSpec}
    {inputId : Nat} {plan : Plan} {manager : EncoderCacheManager}
    (beyond : numComputedTokens + plan.numNewTokens + shiftComputedTokens ≤ feature.mmPosition.offset) :
    planInput encoderCacheMethods config request numComputedTokens shiftComputedTokens feature inputId
      plan manager = some (.leave, plan, manager) := by
  exact if_pos beyond

/-- An input that was passed over although the drafter reads from it stays without its
embeddings, if the inputs behind it begin after it. -/
theorem planInputs_misses (decoderOnly : config.isEncoderDecoder = false) (single : shiftComputedTokens ≤ 1)
    (rest : List (MultiModalFeatureSpec × Nat)) {plan after : Plan} {manager next : EncoderCacheManager}
    (accounted : Accounted size cacheSize manager)
    (tracks : Tracks request encoderComputeBudget manager.numFreeSlots plan)
    (listed : ∀ entry ∈ rest, request.mmFeatures[entry.2]? = some entry.1)
    (apart : rest.Pairwise fun first second =>
      first.1.mmPosition.offset + first.1.mmPosition.length ≤ second.1.mmPosition.offset)
    (ran : planInputs encoderCacheMethods config request numComputedTokens shiftComputedTokens
        rest plan manager = some (after, next))
    {feature : MultiModalFeatureSpec}
    (passed : feature ∈ passedOver encoderCacheMethods config request numComputedTokens
        shiftComputedTokens rest plan manager)
    {position : Nat} (shifted : numComputedTokens + plan.numNewTokens ≤ position)
    (before : position < numComputedTokens + plan.numNewTokens + shiftComputedTokens)
    (reads : EmbedAt feature.mmPosition position) :
    after.numNewTokens = plan.numNewTokens ∧ feature.identifier ∉ after.mmHashesToSchedule ∧
      ¬ Referenced next request feature.identifier ∧ ∃ entry ∈ rest, entry.1 = feature := by
  induction rest generalizing plan manager with
  | nil => cases passed
  | cons entry rest ih =>
    obtain ⟨first, inputId⟩ := entry
    obtain ⟨apart', apart⟩ := pairwise_cons.mp apart
    have listed' := fun entry member => listed entry (mem_cons_of_mem _ member)
    obtain ⟨turn, middle, between, turned, round, result⟩ := planInput_round accounted decoderOnly
      tracks (listed (first, inputId) mem_cons_self) numComputedTokens shiftComputedTokens
    rw [planInputs, turned] at ran
    rw [passedOver, turned] at passed
    have inRest (same : middle.numNewTokens = plan.numNewTokens)
        (ran : planInputs encoderCacheMethods config request numComputedTokens shiftComputedTokens
          rest middle between = some (after, next))
        (passed : feature ∈ passedOver encoderCacheMethods config request numComputedTokens
          shiftComputedTokens rest middle between) :
        after.numNewTokens = plan.numNewTokens ∧ feature.identifier ∉ after.mmHashesToSchedule ∧
          ¬ Referenced next request feature.identifier ∧
          ∃ entry ∈ (first, inputId) :: rest, entry.1 = feature := by
      have later := ih round.accounted round.tracks listed' apart ran passed (by omega) (by omega)
      obtain ⟨kept, fresh, missed, entry, member, named⟩ := later
      exact ⟨kept.trans same, fresh, missed, entry, mem_cons_of_mem _ member, named⟩
    cases turn with
    | leave => cases passed
    | skip => exact inRest (by rw [result.1]) ran passed
    | take => exact inRest result.1 ran passed
    | passOver =>
      rcases mem_cons.mp passed with rfl | passed
      · obtain ⟨rfl, fresh, missed, _⟩ := result
        -- The next input begins behind the last position that is read.
        have ended : (after, next) = (middle, between) := by
          cases rest with
          | nil =>
            cases ran
            rfl
          | cons second rest =>
            obtain ⟨other, otherId⟩ := second
            have behind := apart' (other, otherId) mem_cons_self
            have within := reads.2.1
            dsimp only at behind
            change planInputs encoderCacheMethods config request numComputedTokens
              shiftComputedTokens ((other, otherId) :: rest) middle between = some (after, next) at ran
            rw [planInputs, planInput_beyond (by omega)] at ran
            cases ran
            rfl
        cases ended
        exact ⟨rfl, fresh, fun refers => missed refers.cached, (feature, inputId),
          mem_cons_self, rfl⟩
      · exact inRest (by rw [result.1]) ran passed

/-- The inputs that a call leaves out because they have no embeddings in its range. -/
def inputsPassedOver {Manager : Type} (methods : CacheMethods Manager) (config : Config)
    (request : EncoderRequest) (numComputedTokens numNewTokens encoderComputeBudget
      shiftComputedTokens : Nat) (manager : Manager) : List MultiModalFeatureSpec :=
  if numNewTokens = 0 ∨ request.mmFeatures = [] then []
  else
    passedOver methods config request numComputedTokens shiftComputedTokens request.mmFeatures.zipIdx
      (startPlan numNewTokens encoderComputeBudget) manager

/-- Every feature that the step reads from is computed or loaded in this step, or it was
cached and the request now refers to it. -/
def StepCovered (request : EncoderRequest) (before : EncoderCacheManager)
    (numComputedTokens shiftComputedTokens : Nat) (plan : Plan) (after : EncoderCacheManager) : Prop :=
  0 < plan.numNewTokens → ∀ feature ∈ request.mmFeatures, ∀ position, numComputedTokens ≤ position →
    position < numComputedTokens + plan.numNewTokens + shiftComputedTokens →
    EmbedAt feature.mmPosition position →
    Provides request plan feature.identifier ∨
      (feature.identifier ∈ before.cached.keys ∧ Referenced after request feature.identifier)

theorem zipIdx_pairwise {related : MultiModalFeatureSpec → MultiModalFeatureSpec → Prop}
    {features : List MultiModalFeatureSpec} (pairwise : features.Pairwise related) :
    features.zipIdx.Pairwise fun first second => related first.1 second.1 := by
  apply pairwise_map.mp
  rw [zipIdx_map_fst]
  exact pairwise

/-- The call never raises and stays within its budgets. It covers the step if the loop
passes over no input that only the drafter reads; for placeholders that lie apart
it does so in no other case. -/
theorem tryScheduleEncoderInputs_covers {manager : EncoderCacheManager}
    (accounted : Accounted size cacheSize manager) (config : Config)
    (decoderOnly : config.isEncoderDecoder = false) (request : EncoderRequest)
    (sorted : request.mmFeatures.Pairwise fun first second =>
      first.mmPosition.offset ≤ second.mmPosition.offset)
    (shaped : ∀ feature ∈ request.mmFeatures, Shaped feature.mmPosition)
    (numComputedTokens numNewTokens encoderComputeBudget shiftComputedTokens : Nat) :
    ∃ plan next, tryScheduleEncoderInputs encoderCacheMethods config request numComputedTokens
        numNewTokens encoderComputeBudget shiftComputedTokens manager = some (plan, next) ∧
      plan.numNewTokens ≤ numNewTokens ∧
      embeds request plan.encoderInputsToSchedule + plan.encoderComputeBudget = encoderComputeBudget ∧
      embeds request (plan.encoderInputsToSchedule ++ plan.externalLoadEncoderInput) ≤
        next.numFreeSlots ∧
      (SparesShift numComputedTokens numNewTokens shiftComputedTokens
          (inputsPassedOver encoderCacheMethods config request numComputedTokens numNewTokens
            encoderComputeBudget shiftComputedTokens manager) →
        StepCovered request manager numComputedTokens shiftComputedTokens plan next) ∧
      (shiftComputedTokens ≤ 1 →
        (request.mmFeatures.Pairwise fun first second =>
          first.mmPosition.offset + first.mmPosition.length ≤ second.mmPosition.offset) →
        StepCovered request manager numComputedTokens shiftComputedTokens plan next →
        SparesShift numComputedTokens numNewTokens shiftComputedTokens
          (inputsPassedOver encoderCacheMethods config request numComputedTokens numNewTokens
            encoderComputeBudget shiftComputedTokens manager)) := by
  have tracks := Tracks.start accounted.nonneg request numNewTokens encoderComputeBudget
  rw [tryScheduleEncoderInputs, inputsPassedOver]
  split
  · rename_i trivial
    have room := tracks.room
    refine ⟨_, _, rfl, le_refl _, tracks.budget, room, ?_, ?_⟩
    · intro _ positive feature member
      dsimp only [startPlan] at positive
      rcases trivial with zero | none
      · omega
      · rw [none] at member
        cases member
    · intro _ _ _ feature member
      cases member
  · have listed : ∀ entry ∈ request.mmFeatures.zipIdx, request.mmFeatures[entry.2]? = some entry.1 :=
      fun _ member => mem_zipIdx_iff_getElem?.mp member
    obtain ⟨plan, next, settled⟩ : ∃ plan next, Settled size cacheSize request encoderComputeBudget config
        numComputedTokens shiftComputedTokens request.mmFeatures.zipIdx
        (startPlan numNewTokens encoderComputeBudget) plan manager next :=
      planInputs_settled decoderOnly request.mmFeatures.zipIdx accounted tracks listed
        (zipIdx_pairwise sorted)
        (fun entry member => shaped entry.1 (mem_of_getElem? (listed entry member)))
    have room := settled.round.tracks.room
    rw [settled.round.tracks.chosen] at room
    refine ⟨plan, next, settled.ran, settled.less, settled.round.tracks.budget, room, ?_, ?_⟩
    · intro spares positive feature member position reached before reads
      obtain ⟨inputId, named⟩ := mem_iff_getElem?.mp member
      have covered := settled.covers spares positive (feature, inputId)
        (mem_zipIdx_iff_getElem?.mpr named) position reached before reads
      rcases covered with chosen | referenced
      · exact Or.inl ((settled.round.tracks.provides _).mp chosen)
      · exact Or.inr ⟨settled.round.later.cached _ referenced.cached, referenced⟩
    · intro single apart covered feature passed position shifted before reads
      obtain ⟨same, fresh, missed, entry, member, rfl⟩ := planInputs_misses decoderOnly single
        request.mmFeatures.zipIdx accounted tracks listed (zipIdx_pairwise apart) settled.ran passed
        shifted before reads
      have member := mem_of_getElem? (listed entry member)
      have positive : 0 < numNewTokens := by omega
      rw [StepCovered, same] at covered
      rcases covered positive entry.1 member position (by omega) before reads with provides | ⟨_, refers⟩
      · exact fresh ((settled.round.tracks.provides _).mpr provides)
      · exact missed refers

/-- The drafter reads the first token of an image that begins where the step ends. -/
def eagleRequest : EncoderRequest := ⟨1, [⟨"photo", ⟨4, 3, none⟩⟩]⟩

theorem eagleRequest_missing : ∃ plan next,
    tryScheduleEncoderInputs encoderCacheMethods ⟨false, false, none⟩ eagleRequest 0 4 10 1 (.init 10) =
        some (plan, next) ∧ 0 < plan.numNewTokens ∧
      ¬ StepCovered eagleRequest (.init 10) 0 1 plan next := by
  refine ⟨_, _, rfl, by decide, fun covered => ?_⟩
  have reads : EmbedAt (⟨4, 3, none⟩ : PlaceholderRange) 4 :=
    ⟨by decide, by decide, fun _ none => (by cases none)⟩
  rcases covered (by decide) _ mem_cons_self 4 (by decide) (by decide) reads with provides | held
  · obtain ⟨_, chosen, _⟩ := provides
    cases chosen
  · cases held.1

theorem sampleRequest_covered : ∃ plan next,
    tryScheduleEncoderInputs encoderCacheMethods ⟨false, true, none⟩ (sampleRequest 1) 0 8 20 1
        (.init 20) = some (plan, next) ∧
      StepCovered (sampleRequest 1) (.init 20) 0 1 plan next := by
  obtain ⟨plan, next, ran, _, _, _, covers, _⟩ := tryScheduleEncoderInputs_covers
    (init_accounted sampleSize 20) ⟨false, true, none⟩ rfl (sampleRequest 1) (by decide)
    (by simp [sampleRequest, Shaped]) 0 8 20 1
  refine ⟨plan, next, ran, covers ?_⟩
  intro feature member
  cases member

end Runs
end VllmDcu.EncoderCoverage

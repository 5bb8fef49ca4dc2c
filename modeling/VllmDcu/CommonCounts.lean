import VllmDcu.CommonRuns
import Mathlib.Logic.Equiv.List

/-! What the number of common prefix blocks promises: the tables of a group begin with the
same blocks. It holds in every run whose `allocate_slots` calls keep the groups apart. -/
namespace VllmDcu.CommonCounts
open Requests FreeBlockQueue BlockPool KVCacheInterface SingleTypeManager CacheManager
open CacheHit BlockHashes PoolCache PoolAccounts TableAccounts TableTurns PoolInvariant
open FreeOrder SharedPrefix SlotAllocation CommonPrefix HitHashes CommonRuns List Option Dict

variable {Digest : Type}

/-- Every table of a group begins with the blocks that are counted as common. -/
def CommonSound (manager : KVCacheManager Digest) : Prop :=
  ∀ (requestId : ReqId) (group count : Nat) (single : Manager Digest),
    manager.coordinator.singleTypeManagers[group]? = some single →
    (manager.getNumCommonPrefixBlocks requestId).1[group]? = some count →
      ∀ other, single.reqToBlocks.contains other = true →
        count ≤ (single.blocksOf other).length ∧
          (single.blocksOf other).take count = (single.blocksOf requestId).take count

/-! Counting. -/

theorem commonLoop_counts {pool : Pool Digest} {numRequests : Nat} {blocks : List BlockId} :
    Manager.commonLoop pool numRequests blocks ≤ blocks.length ∧
      ∀ (index : Nat) (block : BlockId), index < Manager.commonLoop pool numRequests blocks →
        blocks[index]? = some block → (pool.blocks block).refCnt = numRequests := by
  induction blocks with
  | nil => exact ⟨Nat.le_refl 0, fun index block inside => absurd inside (Nat.not_lt_zero index)⟩
  | cons first rest ih =>
    obtain ⟨short, counted⟩ := ih
    simp only [Manager.commonLoop]
    split
    · rename_i first'
      constructor
      · rw [length_cons]
        omega
      · intro index block inside entry
        cases index with
        | zero =>
          obtain rfl := some.inj entry
          exact first'
        | succ index => exact counted index block (by omega) entry
    · constructor
      · exact Nat.zero_le _
      · exact fun index block inside => absurd inside (Nat.not_lt_zero index)

/-- Entries that measure at most one and sum to their number all measure one. -/
theorem measures_one {Value : Type} {entries : List (ReqId × Value)} (measure : Value → Nat)
    (most : ∀ entry ∈ entries, measure entry.2 ≤ 1) :
    ((entries.map Prod.snd).map measure).sum ≤ entries.length ∧
      (((entries.map Prod.snd).map measure).sum = entries.length →
        ∀ entry ∈ entries, measure entry.2 = 1) := by
  induction entries with
  | nil => exact ⟨Nat.le_refl 0, by simp⟩
  | cons first rest ih =>
    obtain ⟨atMost, all⟩ := ih fun entry member => most entry (mem_cons_of_mem _ member)
    have here := most first mem_cons_self
    simp only [map_cons, sum_cons, length_cons]
    constructor
    · omega
    · intro sum entry member
      cases mem_cons.mp member with
      | inl same =>
        rw [same]
        omega
      | inr inRest => exact all (by omega) entry inRest

/-- Only one manager has the block. -/
theorem references_one (managers : List (Manager Digest)) (block : BlockId) (index : Nat)
    (single : Manager Digest) (atIndex : managers[index]? = some single)
    (others : ∀ (index' : Nat) (other : Manager Digest), managers[index']? = some other →
      index' ≠ index → occurrences other block = 0) :
    references managers block = occurrences single block := by
  induction managers generalizing index with
  | nil => cases atIndex
  | cons first rest ih =>
    simp only [references, map_cons, sum_cons]
    cases index with
    | zero =>
      obtain rfl := some.inj atIndex
      have none : (rest.map fun manager => occurrences manager block).sum = 0 := by
        rw [sum_eq_zero_iff]
        intro count member
        obtain ⟨other, inRest, rfl⟩ := List.mem_map.mp member
        obtain ⟨position, there⟩ := getElem?_of_mem inRest
        exact others (position + 1) other there (Nat.succ_ne_zero position)
      omega
    | succ index =>
      have zero := others 0 first rfl (Nat.succ_ne_zero index).symm
      have later := ih index atIndex fun position other there differs =>
        others (position + 1) other there (by omega)
      rw [references] at later
      omega

section Soundness
variable {hash : Digest × Payload Digest → Digest} {root : Digest} {scaleOf : Nat → Nat}

theorem occurs_placed (manager : Manager Digest) (block : BlockId)
    (used : occurrences manager block ≠ 0) :
    ∃ index, Placed manager block manager.kvCacheGroupId index := by
  by_contra nowhere
  have unused := (PrefixReset.references_eq_zero_iff [manager] block).mpr (by
    intro single member requestId listed
    obtain rfl := mem_singleton.mp member
    obtain ⟨index, entry⟩ := getElem?_of_mem listed
    exact nowhere ⟨index, rfl, requestId, entry⟩)
  simp only [references, map_cons, map_nil, sum_cons, sum_nil] at unused
  exact used (by omega)

/-- A block whose count is the number of tables sits in all of them, at one index. -/
theorem common_everywhere {coordinator : Coordinator Digest}
    (inLine : InLine hash root scaleOf coordinator) {group : Nat} {single : Manager Digest}
    (atGroup : coordinator.singleTypeManagers[group]? = some single) {requestId : ReqId}
    {index : Nat} (block : BlockId) (entry : (single.blocksOf requestId)[index]? = some block)
    (common : (coordinator.blockPool.blocks block).refCnt =
      (single.setBlocks requestId (single.blocksOf requestId)).reqToBlocks.entries.length)
    {other : ReqId} (present : single.reqToBlocks.contains other = true) :
    (single.blocksOf other)[index]? = some block := by
  have aligned := inLine.arranged.aligned
  have balanced := inLine.arranged.balanced
  have member := mem_of_getElem? atGroup
  have here : PlacedIn coordinator.singleTypeManagers block single.kvCacheGroupId index :=
    ⟨single, member, rfl, requestId, entry⟩
  have real := aligned.real block _ index (Or.inl here)
  -- The count is the count of this group's entries.
  have alone := references_one coordinator.singleTypeManagers block group single atGroup
    (by
      intro group' manager atGroup' differs
      by_contra used
      obtain ⟨index', place⟩ := occurs_placed manager block used
      have there : PlacedIn coordinator.singleTypeManagers block manager.kvCacheGroupId index' :=
        ⟨manager, mem_of_getElem? atGroup', place⟩
      have same := (aligned.one block _ index _ index' (Or.inl here) (Or.inl there)).1
      rw [inLine.groups.ids group single atGroup, inLine.groups.ids group' manager atGroup'] at same
      exact differs same.symm)
  have counted := balanced.counted.counts block real
  let looked := single.setBlocks requestId (single.blocksOf requestId)
  have kept := setBlocks_kept single requestId
  have total : ((looked.reqToBlocks.entries.map Prod.snd).map fun blocks => blocks.count block).sum =
      looked.reqToBlocks.entries.length := by
    have occurs : occurrences looked block = looked.reqToBlocks.entries.length := by
      rw [kept.total block, ← alone]
      rw [common] at counted
      exact (Int.ofNat_inj.mp counted).symm
    exact occurs
  have once : ∀ entry ∈ looked.reqToBlocks.entries, entry.2.count block ≤ 1 := by
    rintro ⟨key, blocks⟩ listed
    have table : looked.blocksOf key = blocks := by
      rw [Manager.blocksOf, (get?_eq_some_iff _).mpr listed]
      rfl
    rw [← table, kept.tables]
    exact balanced.single single member key block real
  have all := (measures_one _ once).2 total
  -- So every table has the block, and it has one index only.
  obtain ⟨blocks, found⟩ : ∃ blocks, looked.reqToBlocks.get? other = some blocks := by
    obtain ⟨blocks, before⟩ := isSome_iff_exists.mp present
    by_cases same : other = requestId
    · exact ⟨_, by rw [same]; exact (get?_set _ _ _ _).trans (if_pos rfl)⟩
    · exact ⟨blocks, ((get?_set _ _ _ _).trans (if_neg same)).trans before⟩
  have one := all (other, blocks) ((get?_eq_some_iff _).mp found)
  have table : single.blocksOf other = blocks := by
    rw [← kept.tables, Manager.blocksOf, found]
    rfl
  rw [← table] at one
  obtain ⟨index', entry'⟩ := getElem?_of_mem
    (count_pos_iff.mp (one.symm ▸ Nat.one_pos : 0 < (single.blocksOf other).count block))
  have there : PlacedIn coordinator.singleTypeManagers block single.kvCacheGroupId index' :=
    ⟨single, member, rfl, other, entry'⟩
  rw [(aligned.one block _ index _ index' (Or.inl here) (Or.inl there)).2]
  exact entry'

theorem getNumCommonPrefixBlocks_full (manager : Manager Digest) (full : Full manager.kvCacheSpec)
    (pool : Pool Digest) (requestId : ReqId) :
    manager.getNumCommonPrefixBlocks pool requestId =
      (Manager.commonLoop pool
        (manager.setBlocks requestId (manager.blocksOf requestId)).reqToBlocks.entries.length
        (manager.blocksOf requestId), manager.setBlocks requestId (manager.blocksOf requestId)) := by
  unfold Manager.getNumCommonPrefixBlocks
  cases kind : manager.kvCacheSpec with
  | fullAttention | mlaAttention | sinkFullAttention => rfl
  | slidingWindow | chunkedLocalAttention | mamba | crossAttention =>
    rw [kind] at full
    exact full.elim

/-- What is counted as common is common, when every entry is in line. -/
theorem inLine_commonSound (manager : KVCacheManager Digest)
    (inLine : InLine hash root scaleOf manager.coordinator) : CommonSound manager := by
  intro requestId group count single atGroup counts other present
  have full := (inLine.groups.full single (mem_of_getElem? atGroup)).1
  have counted : count = 0 ∨ count = Manager.commonLoop manager.coordinator.blockPool
      (single.setBlocks requestId (single.blocksOf requestId)).reqToBlocks.entries.length
      (single.blocksOf requestId) := by
    simp only [KVCacheManager.getNumCommonPrefixBlocks, Coordinator.getNumCommonPrefixBlocks]
      at counts
    split at counts
    · rw [getElem?_map, atGroup] at counts
      exact Or.inl (some.inj counts).symm
    · rw [getElem?_map, getElem?_map, atGroup, map_some,
        getNumCommonPrefixBlocks_full single full] at counts
      exact Or.inr (some.inj counts).symm
  have everywhere (index : Nat) (inside : index < count) :
      ∃ block, (single.blocksOf requestId)[index]? = some block ∧
        (single.blocksOf other)[index]? = some block := by
    cases counted with
    | inl none => omega
    | inr loop =>
      obtain ⟨short, common⟩ := commonLoop_counts
      rw [← loop] at short common
      have entry := getElem?_eq_getElem (Nat.lt_of_lt_of_le inside short)
      exact ⟨_, entry, common_everywhere inLine atGroup _ entry (common index _ inside entry) present⟩
  constructor
  · by_contra long
    obtain ⟨block, -, entry⟩ := everywhere (single.blocksOf other).length (by omega)
    rw [getElem?_eq_none (Nat.le_refl _)] at entry
    contradiction
  · apply ext_getElem?
    intro index
    rw [getElem?_take, getElem?_take]
    split
    · rename_i inside
      obtain ⟨block, here, there⟩ := everywhere index inside
      rw [here, there]
    · rfl

end Soundness

/-! Runs. -/

section Runs
variable [DecidableEq Digest]

inductive Call (Digest : Type) where
  | allocateSlots (request : Request Digest) (args : KVCacheManager.AllocateArgs)
  | free (request : Request Digest)
  | removeSkippedBlocks (requestId : ReqId) (totalComputedTokens : Int)
  | cacheBlocks (request : Request Digest) (numComputedTokens : Int)
  | evictBlocks (blockIds : List BlockId)
  | resetPrefixCache
  | getNumCommonPrefixBlocks (requestId : ReqId)
  | takeNewBlockIds
  | newStepStarts

/-- The manager after a call that does not fail. -/
def Call.result (manager : KVCacheManager Digest) : Call Digest → Option (KVCacheManager Digest)
  | .allocateSlots request args => (manager.allocateSlots request args).map Prod.snd
  | .free request => manager.free request
  | .removeSkippedBlocks requestId totalComputedTokens =>
    manager.removeSkippedBlocks requestId totalComputedTokens
  | .cacheBlocks request numComputedTokens => manager.cacheBlocks request numComputedTokens
  | .evictBlocks blockIds => manager.evictBlocks blockIds
  | .resetPrefixCache => some manager.resetPrefixCache.2
  | .getNumCommonPrefixBlocks requestId => some (manager.getNumCommonPrefixBlocks requestId).2
  | .takeNewBlockIds => some manager.takeNewBlockIds.2
  | .newStepStarts => some manager.newStepStarts

variable (hash : Digest × Payload Digest → Digest) (root : Digest)

/-- What the scheduler hands in: requests with the hashes of their tokens, and the hits that it
was given for the request. -/
def Call.Proper (manager : KVCacheManager Digest) : Call Digest → Prop
  | .allocateSlots request args =>
    Chained hash root request ∧
      HitsFit manager.coordinator args.newComputedBlocks (localTokens request args)
        args.numExternalComputedTokens ∧
      FoundHits manager request args.newComputedBlocks
  | .cacheBlocks request _ => Chained hash root request
  | _ => True

/-- The condition on a call: the groups that it allocates for stay apart. -/
def Call.Apart (manager : KVCacheManager Digest) : Call Digest → Prop
  | .allocateSlots request args => GroupsApart manager request args
  | _ => True

/-- The states of the managers of full-attention groups, by calls that are allowed. -/
inductive Reachable (allowed : KVCacheManager Digest → Call Digest → Prop) :
    KVCacheManager Digest → Prop where
  | init {manager : KVCacheManager Digest} (config : KVCacheConfig)
      (maxModelLen hashBlockSize : Nat) (enableCaching useEagle enableKvCacheEvents : Bool)
      (dcpWorldSize pcpWorldSize : Nat) (parallel : 0 < dcpWorldSize * pcpWorldSize)
      (full : ∀ spec ∈ config.kvCacheGroups, Full spec ∧ 0 < spec.blockSize)
      (made : KVCacheManager.init config maxModelLen hashBlockSize enableCaching useEagle
        enableKvCacheEvents dcpWorldSize pcpWorldSize = some manager) : Reachable allowed manager
  | call {manager next : KVCacheManager Digest} (reached : Reachable allowed manager)
      (call : Call Digest) (may : allowed manager call) (done : call.result manager = some next) :
      Reachable allowed next

variable {hash root} {scaleOf : Nat → Nat}

theorem evictBlocks_lost (pool pool' : Pool Digest) (blockIds : List BlockId)
    (evicted : pool.evictBlocks blockIds = some pool') : Lost pool pool' := by
  induction blockIds generalizing pool with
  | nil =>
    obtain rfl := some.inj evicted
    exact fun _ => Or.inl rfl
  | cons block rest ih =>
    rw [Pool.evictBlocks] at evicted
    split at evicted
    · exact maybeEvict_lost.trans (ih _ evicted)
    · contradiction

omit [DecidableEq Digest] in
theorem resetPrefixCache_lost {pool : Pool Digest} : Lost pool pool.resetPrefixCache.2 := by
  unfold Pool.resetPrefixCache
  split
  · exact fun _ => Or.inl rfl
  · intro block
    refine Or.inr ?_
    rw [(addEvent_sameHashes _ .allBlocksCleared).hashes]

omit [DecidableEq Digest] in
/-- A call on the managers that forgets what is not a table. -/
theorem quiet_ordered {manager : KVCacheManager Digest}
    (ordered : Ordered hash root scaleOf manager) {pool : Pool Digest}
    (change : Manager Digest → Manager Digest) (hashed : Hashed pool)
    (counts : SameCounts manager.coordinator.blockPool pool)
    (lost : Lost manager.coordinator.blockPool pool)
    (same : ∀ single ∈ manager.coordinator.singleTypeManagers,
      SameManager single (change single) ∧ Kept single (change single)) :
    Ordered hash root scaleOf
      { manager with
        coordinator :=
          { manager.coordinator with
            blockPool := pool
            singleTypeManagers := manager.coordinator.singleTypeManagers.map change } } := by
  let changed : Coordinator Digest :=
    { manager.coordinator with
      blockPool := pool
      singleTypeManagers := manager.coordinator.singleTypeManagers.map change }
  have managers : Forall₂ (fun single single' : Manager Digest =>
      SameManager single single' ∧ Kept single single') manager.coordinator.singleTypeManagers
      changed.singleTypeManagers := by
    rw [forall₂_map_right_iff]
    exact forall₂_same.mpr same
  exact ordered.next changed (quiet_inLine ordered.inLine hashed counts lost managers rfl rfl rfl)

omit [DecidableEq Digest] in
theorem newStepStarts_full {coordinator : Coordinator Digest} (groups : FullGroups coordinator) :
    coordinator.newStepStarts = coordinator := by
  unfold Coordinator.newStepStarts
  rw [map_congr_left (g := id), List.map_id]
  intro manager member
  have full := (groups.full manager member).1
  cases kind : manager.kvCacheSpec with
  | fullAttention | mlaAttention => rfl
  | slidingWindow | chunkedLocalAttention | mamba | sinkFullAttention | crossAttention =>
    rw [kind] at full
    exact full.elim

/-- Every proper call that keeps the groups apart keeps the entries in line. -/
theorem call_ordered (collisionFree : Function.Injective hash)
    (fresh : ∀ input, hash input ≠ root) (manager next : KVCacheManager Digest)
    (ordered : Ordered hash root scaleOf manager) (call : Call Digest)
    (proper : call.Proper hash root manager) (apart : call.Apart manager)
    (done : call.result manager = some next) : Ordered hash root scaleOf next := by
  have hashed := ordered.inLine.arranged.balanced.hashed
  cases call with
  | allocateSlots request args =>
    obtain ⟨chained, fits, found⟩ := proper
    obtain ⟨⟨slots, result⟩, allocated, rfl⟩ := map_eq_some_iff.mp done
    exact allocateSlots_ordered collisionFree fresh ordered chained fits found apart allocated
  | free request =>
    obtain ⟨coordinator, freed, rfl⟩ := map_eq_some_iff.mp done
    exact ordered.next coordinator (free_inLine ordered.inLine freed)
  | removeSkippedBlocks requestId totalComputedTokens =>
    simp only [Call.result, KVCacheManager.removeSkippedBlocks,
      removeSkippedBlocks_full ordered.inLine.groups,
      map_some, some.injEq] at done
    rw [← done]
    exact ordered
  | cacheBlocks request numComputedTokens =>
    simp only [Call.result, KVCacheManager.cacheBlocks] at done
    split at done
    · rename_i on
      obtain ⟨coordinator, cached, rfl⟩ := map_eq_some_iff.mp done
      exact ordered.next coordinator (cacheBlocks_inLine proper
        (ordered.caching on) ordered.inLine cached)
    · obtain rfl := some.inj done
      exact ordered
  | evictBlocks blockIds =>
    obtain ⟨pool, evicted, rfl⟩ := map_eq_some_iff.mp done
    obtain ⟨hashedNow, same, -⟩ := evictBlocks_hashed manager.coordinator.blockPool blockIds hashed
      pool evicted
    have quiet := quiet_ordered ordered id hashedNow same
      (evictBlocks_lost _ pool blockIds evicted) fun single _ =>
        ⟨SameManager.refl single, Kept.refl single⟩
    rwa [List.map_id] at quiet
  | resetPrefixCache =>
    obtain rfl := some.inj done
    obtain ⟨hashedNow, same, -⟩ := resetPrefixCache_hashed hashed
    have quiet := quiet_ordered ordered id hashedNow same
      resetPrefixCache_lost fun single _ =>
        ⟨SameManager.refl single, Kept.refl single⟩
    rwa [List.map_id] at quiet
  | getNumCommonPrefixBlocks requestId =>
    obtain rfl := some.inj done
    simp only [KVCacheManager.getNumCommonPrefixBlocks, Coordinator.getNumCommonPrefixBlocks]
    split
    · exact ordered
    · have quiet := quiet_ordered ordered
        (fun single =>
          (single.getNumCommonPrefixBlocks manager.coordinator.blockPool requestId).2) hashed
        (SameCounts.refl _) (fun _ => Or.inl rfl)
        (by
          intro single member
          simp only [getNumCommonPrefixBlocks_full single
            (ordered.inLine.groups.full single member).1]
          exact ⟨setBlocks_same single requestId _, setBlocks_kept single requestId⟩)
      simp only [List.map_map]
      exact quiet
  | takeNewBlockIds =>
    obtain rfl := some.inj done
    exact quiet_ordered ordered
      (fun single => single.takeNewBlockIds.2) hashed (SameCounts.refl _) (fun _ => Or.inl rfl)
      fun single _ => ⟨⟨rfl, rfl, rfl, rfl⟩, ⟨rfl, fun _ => rfl, fun _ => rfl⟩⟩
  | newStepStarts =>
    obtain rfl := some.inj done
    simp only [KVCacheManager.newStepStarts, newStepStarts_full ordered.inLine.groups]
    exact ordered

theorem reachable_ordered (collisionFree : Function.Injective hash)
    (fresh : ∀ input, hash input ≠ root) (manager : KVCacheManager Digest)
    (reached : Reachable (fun manager call => call.Proper hash root manager ∧ call.Apart manager)
      manager) : ∃ scaleOf, Ordered hash root scaleOf manager := by
  induction reached with
  | init config maxModelLen hashBlockSize enableCaching useEagle enableKvCacheEvents dcpWorldSize
      pcpWorldSize parallel full made =>
      exact init_ordered parallel full _ made
  | call _ call may done ih =>
    obtain ⟨scaleOf, ordered⟩ := ih
    exact ⟨scaleOf, call_ordered collisionFree fresh _ _ ordered call may.1 may.2 done⟩

end Runs

/-! Two groups of full attention. Two requests leave two cached blocks each, a third one stays.
A fourth begins like the first and has two external tokens: the first group draws the block that
is the hit of the second group, so that both groups hold it. -/

def keyCode : ExtraKey Nat → List Nat ⊕ Nat
  | .text value => .inl (value.toList.map Char.toNat)
  | .bytes value => .inr value

theorem keyCode_injective : Function.Injective keyCode := by
  intro first second same
  cases first with
  | text value =>
    cases second with
    | text value' =>
      have chars := map_injective_iff.mpr (fun _ _ equal => Char.toNat_inj.mp equal)
        (Sum.inl.inj same)
      rw [String.toList_inj.mp chars]
    | bytes => cases same
  | bytes value =>
    cases second with
    | text => cases same
    | bytes value' => rw [Sum.inr.inj same]

/-- A hash without collisions: the number of what is hashed. -/
def digestCode (input : Nat × Payload Nat) : Nat :=
  Encodable.encode (input.1, input.2.1, input.2.2.map (List.map keyCode)) + 1

theorem digestCode_injective : Function.Injective digestCode := by
  rintro ⟨parent, tokens, keys⟩ ⟨parent', tokens', keys'⟩ same
  have codes := Encodable.encode_injective (Nat.succ.inj same)
  simp only [Prod.mk.injEq] at codes
  obtain ⟨rfl, rfl, keysSame⟩ := codes
  rw [map_injective (map_injective_iff.mpr keyCode_injective) keysSame]

def twoFullGroups : KVCacheConfig :=
  ⟨7, [.fullAttention ⟨⟨2, 2, 8, ⟨"float16", 2⟩, none⟩, 8, none, none⟩,
    .fullAttention ⟨⟨2, 1, 16, ⟨"float16", 2⟩, none⟩, 16, none, none⟩]⟩

def codedArgs (requestId : ReqId) (tokens : List Token) : RequestArgs Nat :=
  { requestId := requestId
    promptTokenIds := some tokens
    samplingParams := some ⟨5, 0, none, [], none, none⟩
    poolingParams := none
    clientIndex := 0
    arrivalTime := 0
    promptEmbeds := none
    mmFeatures := []
    loraRequest := none
    cacheSalt := none
    priority := 0
    structuredOutput := false
    blockHasher := some ⟨2, digestCode, 0⟩
    resumable := false }

def codedRequest (requestId : ReqId) (tokens : List Token) : Request Nat :=
  (Request.init (codedArgs requestId tokens)).get rfl

theorem codedRequest_chained {requestId : ReqId} {tokens : List Token} :
    Chained digestCode 0 (codedRequest requestId tokens) :=
  init_chained ⟨2, digestCode, 0⟩ rfl _ (some_get _).symm

def newManager : KVCacheManager Nat :=
  (KVCacheManager.init twoFullGroups 100 2 true false false 1 1).get rfl

theorem newManager_reachable (allowed : KVCacheManager Nat → Call Nat → Prop) :
    Reachable allowed newManager := by
  refine .init twoFullGroups 100 2 true false false 1 1 (by decide) ?_ rfl
  simp [twoFullGroups, Full, KVCacheSpec.blockSize]

def freshSlots : KVCacheManager.AllocateArgs := ⟨2, 0, none, 0, 0, false, 0⟩

theorem freshSlots_proper {manager : KVCacheManager Nat} {requestId : ReqId} {tokens : List Token} :
    (Call.allocateSlots (codedRequest requestId tokens) freshSlots).Proper digestCode 0 manager := by
  refine ⟨codedRequest_chained, ?_, Or.inl rfl⟩
  intro single _ blocks given
  obtain rfl : [] = blocks := some.inj given
  constructor
  · simp
  · intro block _
    exact Nat.zero_le 1
  · intro external
    contradiction

/-- Three requests of one block in each group; two of them are gone again. -/
def firstCalls : List (Call Nat) :=
  [.allocateSlots (codedRequest 1 [1, 2]) freshSlots,
    .allocateSlots (codedRequest 2 [3, 4]) freshSlots,
    .allocateSlots (codedRequest 3 [5, 6]) freshSlots,
    .free (codedRequest 1 [1, 2]), .free (codedRequest 2 [3, 4])]

theorem firstCalls_proper (manager : KVCacheManager Nat) :
    ∀ call ∈ firstCalls, call.Proper digestCode 0 manager := by
  intro call member
  simp only [firstCalls, mem_cons, not_mem_nil, or_false] at member
  rcases member with rfl | rfl | rfl | rfl | rfl
  · exact freshSlots_proper
  · exact freshSlots_proper
  · exact freshSlots_proper
  · trivial
  · trivial

theorem calls_reachable (allowed : KVCacheManager Nat → Call Nat → Prop) (calls : List (Call Nat))
    (may : ∀ manager, ∀ call ∈ calls, allowed manager call) (manager final : KVCacheManager Nat)
    (reached : Reachable allowed manager)
    (done : calls.foldlM (fun manager (call : Call Nat) => call.result manager) manager =
      some final) : Reachable allowed final := by
  induction calls generalizing manager with
  | nil =>
    obtain rfl := some.inj done
    exact reached
  | cons call rest ih =>
    obtain ⟨next, here, later⟩ := bind_eq_some_iff.mp done
    exact ih (fun manager other member => may manager other (mem_cons_of_mem _ member)) next
      (.call reached call (may manager call mem_cons_self) here) later

def cachedManager : KVCacheManager Nat :=
  (firstCalls.foldlM (fun manager (call : Call Nat) => call.result manager) newManager).get
    (by decide +kernel)

/-- Six tokens; the second block of each group comes from elsewhere. -/
def sharingRequest : Request Nat := codedRequest 4 [1, 2, 3, 4, 5, 6]

def externalSlots : KVCacheManager.AllocateArgs := ⟨0, 2, some [[1], [2]], 0, 2, true, 0⟩

def sharingManager : KVCacheManager Nat :=
  ((Call.allocateSlots sharingRequest externalSlots).result cachedManager).get (by decide +kernel)

theorem cachedManager_hits :
    cachedManager.getComputedBlocks sharingRequest = some (some [[1], [2]], 2) := by
  decide +kernel

theorem externalSlots_proper :
    (Call.allocateSlots sharingRequest externalSlots).Proper digestCode 0 cachedManager := by
  refine ⟨codedRequest_chained, ?_, Or.inr ⟨2, cachedManager_hits⟩⟩
  have groups : cachedManager.coordinator.singleTypeManagers.map
      (fun single => (single.kvCacheGroupId, single.blockSize)) = [(0, 2), (1, 2)] := by
    decide +kernel
  have size : cachedManager.coordinator.blockPool.numGpuBlocks = 7 := by decide +kernel
  intro single member blocks given
  have listed := List.mem_map_of_mem (f := fun single : Manager Nat =>
    (single.kvCacheGroupId, single.blockSize)) member
  rw [groups] at listed
  -- Either group has one hit of two tokens.
  obtain ⟨block, rfl, inside, two⟩ : ∃ block, blocks = [block] ∧ block < 7 ∧
      single.blockSize = 2 := by
    rcases mem_cons.mp listed with first | second
    · obtain ⟨id, two⟩ := Prod.mk.inj first
      rw [id] at given
      exact ⟨1, (some.inj given).symm, by decide, two⟩
    · obtain ⟨id, two⟩ := Prod.mk.inj (mem_singleton.mp second)
      rw [id] at given
      exact ⟨2, (some.inj given).symm, by decide, two⟩
  constructor
  · intro other listed
    rw [mem_singleton.mp listed, size]
    exact Or.inr inside
  · intro other _
    exact nodup_iff_count_le_one.mp (nodup_singleton block) other
  · rw [two, length_singleton]
    decide

theorem sharingManager_tables :
    (sharingManager.getNumCommonPrefixBlocks 4).1 = [0, 1] ∧
      sharingManager.coordinator.singleTypeManagers.map (fun single =>
        (single.blocksOf 4, single.blocksOf 3, single.reqToBlocks.contains 3)) =
          [([1, 2], [5], true), ([2, 3], [6], true)] := by
  decide +kernel

end VllmDcu.CommonCounts

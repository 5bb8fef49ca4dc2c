import VllmDcu.HybridRounds

/-! The hybrid coordinator's hit. The first full-attention lists are cut to the
final length, and the lists of further full-attention specs keep the length that
the first round gave them. -/
namespace VllmDcu.HybridHit
open Requests FreeBlockQueue BlockPool KVCacheInterface MathUtils CacheHit CacheHitRules
open AttentionGroups HybridRounds List Option

variable {Digest : Type}

structure WellFormedHit (search : HybridSearch Digest) (maxLength : Nat)
    (lists : List (List BlockId)) (hit : Nat) : Prop where
  bounded : hit ≤ maxLength
  aligned : ∀ spec ∈ search.specs, spec.blockSize ∣ hit
  count : lists.length = search.specs.length
  length : ∀ (groupId : Nat) (spec : KVCacheSpec) (blocks : List BlockId),
    search.specs[groupId]? = some spec → lists[groupId]? = some blocks →
      blocks.length = hit / spec.blockSize
  cached : ∀ (groupId : Nat) (spec : KVCacheSpec) (blocks : List BlockId),
    search.specs[groupId]? = some spec → lists[groupId]? = some blocks →
      ∀ index, Needs spec hit index →
        ∃ hash block, (hashesOf search spec)[index]? = some hash ∧ blocks[index]? = some block ∧
          BlockHashToBlockMap.getOneBlock search.pool.cachedBlockHashToBlock (hash, groupId) =
            some block

/-- A second full-attention spec is cut to no shorter length by the groups after it. -/
def SecondFullAccepted (search : HybridSearch Digest) (maxLength : Nat) : Prop :=
  ∀ first second rest, search.groups = first :: second :: rest →
    second.spec.isFullAttention = true →
      let tokens := hitTokens search second (hitTokens search first maxLength)
      ∀ group ∈ rest, hitTokens search group tokens = tokens

theorem goodHit_take {pool : Pool Digest} (blockHashes : List (List Digest)) {spec : KVCacheSpec}
    (full : spec.isFullAttention = true) (positive : 0 < spec.blockSize) {groupIds : List Nat}
    {tokens hit : Nat} (shorter : hit ≤ tokens) (aligned : spec.blockSize ∣ hit)
    {lists : List (List BlockId)} (good : GoodHit pool blockHashes spec groupIds tokens lists) :
    GoodHit pool blockHashes spec groupIds hit
      (lists.map fun blocks => blocks.take (hit / spec.blockSize)) := by
  have whole : hit / spec.blockSize * spec.blockSize = hit := Nat.div_mul_cancel aligned
  have needs (index : Nat) (needed : Needs spec hit index) : Needs spec tokens index := by
    have below := Nat.lt_of_lt_of_le needed.1 shorter
    cases spec with
    | fullAttention | mlaAttention | sinkFullAttention => exact ⟨below, trivial⟩
    | slidingWindow | chunkedLocalAttention | mamba | crossAttention => contradiction
  refine ⟨by rw [length_map, good.count], ?_, ?_⟩
  · intro blocks member
    obtain ⟨longer, inLists, rfl⟩ := List.mem_map.mp member
    have length := good.length longer inLists
    have inside : hit / spec.blockSize ≤ longer.length := by
      apply Nat.le_of_mul_le_mul_right _ positive
      rw [whole, length]
      exact shorter
    rw [length_take, min_eq_left inside, whole]
  · intro index needed
    have inside : index < hit / spec.blockSize := by
      apply Nat.lt_of_mul_lt_mul_right (a := spec.blockSize)
      rw [whole]
      exact needed.1
    exact cachedAt_take _ _ _ _ _ _ inside (good.cached index (needs index needed))

variable (search : HybridSearch Digest)

theorem truncate_other {hit : Nat} {byGroup : HitBlocks} {first : AttentionGroup}
    {rest : List AttentionGroup} (groups : search.groups = first :: rest) {groupId : Nat}
    (absent : groupId ∉ first.groupIds) :
    search.truncate hit byGroup groupId = byGroup groupId := by
  simp only [HybridSearch.truncate, groups]
  by_cases full : first.spec.isFullAttention = true
  · simp only [full, ↓reduceIte, absent]
  · simp only [full, Bool.false_eq_true, ↓reduceIte]

variable (maxLength : Nat)

/-- After the truncation every group holds the final length, unless a further
full-attention spec kept a longer one. -/
theorem truncate_holds (hit : Nat) (byGroup : HitBlocks) (admissible : Admissible search maxLength)
    (searched : Searched search maxLength hit byGroup)
    (further : ∀ first before group after,
      fullGroups search = first :: (before ++ group :: after) →
        passTokens search (first :: before ++ [group]) maxLength = hit) :
    ∀ group ∈ search.groups, Holds search (search.truncate hit byGroup) group hit := by
  have disjoint := groups_disjoint search
  intro group member
  have aligned := searched.aligned (ne_nil_of_mem member)
  cases fulls : fullGroups search with
  | nil =>
    have groups : search.groups = otherGroups search := by rw [groups_eq, fulls, nil_append]
    rw [groups] at member
    have unchanged : search.truncate hit byGroup = byGroup := by
      unfold HybridSearch.truncate
      split
      · rfl
      · rename_i first _ split
        rw [otherGroups_not_full search first (by rw [← groups, split]; exact mem_cons_self)]
        rfl
    rw [unchanged]
    exact searched.other group member
  | cons first more =>
    have groups : search.groups = first :: (more ++ otherGroups search) := by
      rw [groups_eq, fulls, cons_append]
    have firstFull := fullGroups_full search first (by rw [fulls]; exact mem_cons_self)
    rw [groups] at disjoint member
    have apart := (pairwise_cons.mp disjoint).1
    rcases mem_cons.mp member with rfl | later
    · have inGroups : group ∈ search.groups := by rw [groups]; exact mem_cons_self
      have shorter : hit ≤ hitTokens search group maxLength := by
        obtain ⟨_, _, _, _, _, _, short, _⟩ := find_good search maxLength maxLength admissible
          (Nat.le_refl _) group inGroups
        have bounded := searched.bounded
        rw [groups] at bounded
        refine Nat.le_trans bounded (passTokens_le search maxLength admissible _ ?_ _ short)
        intro other inRest
        rw [groups]
        exact mem_cons_of_mem _ inRest
      obtain ⟨lists, good, assigned⟩ := searched.full [] group more fulls
      refine ⟨_, goodHit_take _ firstFull
        (admissible.positive _ (group_spec_mem search group inGroups))
        shorter ((blockSize_dvd_lcm search.specs group inGroups).trans aligned) good, ?_⟩
      intro position groupId given
      have cut : search.truncate hit byGroup groupId =
          (byGroup groupId).map fun blocks => blocks.take (hit / group.spec.blockSize) := by
        have inIds := mem_of_getElem? given
        simp only [HybridSearch.truncate, groups, firstFull, ↓reduceIte, inIds]
      rw [cut, assigned position groupId given, getElem?_map]
    · apply holds_congr search byGroup
      · intro groupId inIds
        exact truncate_other search groups fun inFirst =>
          apart group later groupId inFirst inIds
      · rcases mem_append.mp later with inMore | inOther
        · obtain ⟨before, after, split⟩ := append_of_mem inMore
          have held := searched.full (first :: before) group after (by rw [fulls, split]; rfl)
          rwa [further first before group after (by rw [fulls, split])] at held
        · exact searched.other group inOther

/-- The lists the search returns for its KV cache groups. -/
def hitLists (search : HybridSearch Digest) (byGroup : HitBlocks) : List (List BlockId) :=
  (List.range search.specs.length).map fun groupId => (byGroup groupId).getD []

theorem hitLists_at {byGroup : HitBlocks} {groupId : Nat} {blocks : List BlockId}
    (given : (hitLists search byGroup)[groupId]? = some blocks) :
    (byGroup groupId).getD [] = blocks := by
  simp only [hitLists, getElem?_map, map_eq_some_iff] at given
  obtain ⟨index, atIndex, same⟩ := given
  rw [List.getElem?_eq_some_iff] at atIndex
  obtain ⟨_, rfl⟩ := atIndex
  simpa using same

/-- The group of a KV cache group's spec, and its list there. -/
theorem holds_list {byGroup : HitBlocks} {tokens : Nat} {group : AttentionGroup}
    (inGroups : group ∈ search.groups) (holds : Holds search byGroup group tokens) {groupId : Nat}
    (given : search.specs[groupId]? = some group.spec) {blocks : List BlockId}
    (listed : (hitLists search byGroup)[groupId]? = some blocks) :
    blocks.length * group.spec.blockSize = tokens ∧
      ∀ index, Needs group.spec tokens index →
        ∃ hash block, (hashesOf search group.spec)[index]? = some hash ∧
          blocks[index]? = some block ∧
          BlockHashToBlockMap.getOneBlock search.pool.cachedBlockHashToBlock (hash, groupId) =
            some block := by
  obtain ⟨lists, good, assigned⟩ := holds
  have inIds := ((attentionGroups_grouping search.specs).mem_ids group inGroups groupId).mpr given
  obtain ⟨position, inside⟩ := getElem?_of_mem inIds
  have inLists : position < lists.length := by
    rw [good.count]
    exact (List.getElem?_eq_some_iff.mp inside).1
  have atPosition : lists[position]? = some blocks := by
    have := hitLists_at search listed
    rw [assigned position groupId inside, getElem?_eq_getElem inLists, getD_some] at this
    rw [getElem?_eq_getElem inLists, this]
  refine ⟨good.length blocks (mem_of_getElem? atPosition), ?_⟩
  intro index needed
  obtain ⟨hash, atIndex, entries⟩ := good.cached index needed
  obtain ⟨blocks', block, atPosition', inBlocks, one⟩ := entries position groupId inside
  rw [atPosition, some.injEq] at atPosition'
  exact ⟨hash, block, atIndex, atPosition' ▸ inBlocks, one⟩

theorem wellFormed_of_holds (hit : Nat) (byGroup : HitBlocks)
    (admissible : Admissible search maxLength) (bounded : hit ≤ maxLength)
    (holds : ∀ group ∈ search.groups, Holds search byGroup group hit) :
    WellFormedHit search maxLength (hitLists search byGroup) hit := by
  have grouping := attentionGroups_grouping search.specs
  have list (groupId : Nat) (spec : KVCacheSpec) (blocks : List BlockId)
      (given : search.specs[groupId]? = some spec)
      (listed : (hitLists search byGroup)[groupId]? = some blocks) :
      blocks.length * spec.blockSize = hit ∧
        ∀ index, Needs spec hit index →
          ∃ hash block, (hashesOf search spec)[index]? = some hash ∧ blocks[index]? = some block ∧
            BlockHashToBlockMap.getOneBlock search.pool.cachedBlockHashToBlock (hash, groupId) =
              some block := by
    obtain ⟨group, inGroups, rfl⟩ := grouping.cover spec (mem_of_getElem? given)
    exact holds_list search inGroups (holds group inGroups) given listed
  refine ⟨bounded, ?_, by simp [hitLists], ?_, ?_⟩
  · intro spec member
    obtain ⟨groupId, given⟩ := getElem?_of_mem member
    have inside := (List.getElem?_eq_some_iff.mp given).1
    obtain ⟨length, _⟩ := list groupId spec ((byGroup groupId).getD []) given
      (by simp [hitLists, getElem?_range inside])
    exact ⟨_, by rw [Nat.mul_comm]; exact length.symm⟩
  · intro groupId spec blocks given listed
    obtain ⟨length, _⟩ := list groupId spec blocks given listed
    rw [← length, Nat.mul_div_cancel _ (admissible.positive spec (mem_of_getElem? given))]
  · exact fun groupId spec blocks given listed => (list groupId spec blocks given listed).2

theorem findLongestCacheHit_eq (hit : Nat) (byGroup : HitBlocks)
    (result : search.hitLoop (maxLength + 1) maxLength (fun _ => none) = some (hit, byGroup)) :
    search.findLongestCacheHit maxLength =
      some (hitLists search (search.truncate hit byGroup), hit) := by
  simp only [HybridSearch.findLongestCacheHit, result, map_some]
  rfl

/-- With a second full-attention spec, its list keeps the length of the first round. -/
theorem second_length (hit : Nat) (byGroup : HitBlocks)
    (searched : Searched search maxLength hit byGroup) (first second : AttentionGroup)
    (rest : List AttentionGroup) (groups : search.groups = first :: second :: rest)
    (full : second.spec.isFullAttention = true)
    (wellFormed : WellFormedHit search maxLength
      (hitLists search (search.truncate hit byGroup)) hit) :
    hit = hitTokens search second (hitTokens search first maxLength) := by
  have grouping := attentionGroups_grouping search.specs
  have inGroups : second ∈ search.groups := by rw [groups]; simp
  obtain ⟨more, fulls⟩ : ∃ more, fullGroups search = first :: second :: more := by
    have split := groups_eq search
    rw [groups] at split
    cases fulls : fullGroups search with
    | nil =>
      rw [fulls, nil_append] at split
      have := otherGroups_not_full search second (by rw [← split]; simp)
      rw [full] at this
      contradiction
    | cons head tail =>
      rw [fulls, cons_append] at split
      obtain ⟨rfl, later⟩ := cons.inj split
      cases tail with
      | nil =>
        rw [nil_append] at later
        have := otherGroups_not_full search second (by rw [← later]; simp)
        rw [full] at this
        contradiction
      | cons next tail =>
        obtain ⟨rfl, _⟩ := cons.inj later
        exact ⟨tail, rfl⟩
  have held : Holds search byGroup second
      (hitTokens search second (hitTokens search first maxLength)) :=
    searched.full [first] second more fulls
  have disjoint := groups_disjoint search
  rw [groups] at disjoint
  have apart := (pairwise_cons.mp disjoint).1 second mem_cons_self
  have kept : Holds search (search.truncate hit byGroup) second
      (hitTokens search second (hitTokens search first maxLength)) := by
    refine holds_congr search byGroup ?_ held
    intro groupId inIds
    exact truncate_other search groups fun inFirst =>
      apart groupId inFirst inIds
  obtain ⟨groupId, inIds⟩ := exists_mem_of_ne_nil _ (grouping.nonempty second inGroups)
  have given := (grouping.mem_ids second inGroups groupId).mp inIds
  have inside : groupId < (hitLists search (search.truncate hit byGroup)).length := by
    rw [wellFormed.count]
    exact (List.getElem?_eq_some_iff.mp given).1
  have listed := getElem?_eq_getElem inside
  have length := wellFormed.length groupId second.spec _ given listed
  have tokens := (holds_list search inGroups kept given listed).1
  rw [← tokens, length, Nat.div_mul_cancel (wellFormed.aligned _ (mem_of_getElem? given))]

/-- The hit is well formed exactly when no group shortens the hit that a second
full-attention spec has found. -/
theorem findLongestCacheHit_wellFormed_iff (search : HybridSearch Digest) (maxLength : Nat)
    (admissible : Admissible search maxLength) :
    (∃ lists hit, search.findLongestCacheHit maxLength = some (lists, hit) ∧
        WellFormedHit search maxLength lists hit) ↔ SecondFullAccepted search maxLength := by
  obtain ⟨hit, byGroup, result, searched⟩ := hitLoop_searched search maxLength admissible
  have found := findLongestCacheHit_eq search maxLength hit byGroup result
  have members : ∀ group ∈ search.groups, group ∈ search.groups := fun _ member => member
  have within := passTokens_le search maxLength admissible search.groups members maxLength
    (Nat.le_refl _)
  constructor
  · rintro ⟨lists, hit', found', wellFormed⟩ first second rest groups full
    rw [found] at found'
    obtain ⟨rfl, rfl⟩ := found'
    have same := second_length search maxLength hit byGroup searched first second rest
      groups full wellFormed
    have bounded := searched.bounded
    rw [groups] at bounded members
    have inRest : ∀ group ∈ rest, group ∈ search.groups := by
      intro group member
      rw [groups]
      simp [member]
    rw [← same]
    apply passTokens_fixed search maxLength admissible rest inRest hit wellFormed.bounded
    rw [same] at bounded ⊢
    exact bounded
  · intro accepted
    refine ⟨_, hit, found, wellFormed_of_holds search maxLength hit _ admissible
      (Nat.le_trans searched.bounded within) (truncate_holds search maxLength hit byGroup admissible
        searched ?_)⟩
    intro first before group after fulls
    -- the length of the second full-attention spec is kept to the end
    obtain ⟨second, more, tail⟩ : ∃ second more, before ++ group :: after = second :: more :=
      exists_cons_of_ne_nil (by simp)
    have groups : search.groups = first :: second :: (more ++ otherGroups search) := by
      rw [groups_eq, fulls, tail]
      rfl
    have full : second.spec.isFullAttention = true :=
      fullGroups_full search second (by rw [fulls, tail]; simp)
    have fixed := accepted first second _ groups full
    let tokens := hitTokens search second (hitTokens search first maxLength)
    have fullTokens : passTokens search (fullGroups search) maxLength = tokens := by
      rw [fulls, tail]
      exact passTokens_of_fixed search more tokens fun other member =>
        fixed other (mem_append_left _ member)
    have final : hit = tokens := by
      rw [← fullTokens]
      apply searched.accepted
      rw [fullTokens]
      exact fun other member => fixed other (mem_append_right _ member)
    rw [final]
    cases before with
    | nil =>
      obtain ⟨rfl, _⟩ := List.cons.inj tail
      rfl
    | cons head before =>
      obtain ⟨rfl, rest⟩ := List.cons.inj tail
      refine passTokens_of_fixed search (before ++ [group]) tokens fun other member => fixed other
        (mem_append_left _ ?_)
      rw [← rest]
      rcases mem_append.mp member with inBefore | here
      · exact mem_append_left _ inBefore
      · exact mem_append_right _ (mem_singleton.mp here ▸ mem_cons_self)

/-! Two full-attention specs of one page size over a sliding window whose later
blocks are gone. -/

def fullSpec (blockSize numKvHeads : Nat) : KVCacheSpec :=
  .fullAttention ⟨⟨blockSize, numKvHeads, 8, ⟨"float16", 2⟩, none⟩, 8, none, none⟩

def windowSpec : KVCacheSpec := .slidingWindow ⟨⟨2, 2, 8, ⟨"float16", 2⟩, none⟩, 4⟩

def partlyCached : List (HashKey Nat × BlockId) :=
  [(([10], 0), 1), (([11], 0), 2), (([12], 0), 3), (([13], 0), 4), (([10, 11], 1), 5),
    (([12, 13], 1), 6), (([10], 2), 7), (([11], 2), 8)]

def partlyCachedPool : Pool Nat where
  numGpuBlocks := 9
  enableCaching := true
  hashBlockSize := 2
  blocks := fun block =>
    ⟨if block = 0 then 0 else 1, (partlyCached.find? fun entry => entry.2 = block).map (·.1)⟩
  freeBlockQueue := .init 0
  cachedBlockHashToBlock := fun key => (partlyCached.lookup key).map .single
  nullBlock := 0
  enableKvCacheEvents := false
  kvEventQueue := []

def partlyCachedSearch : HybridSearch Nat where
  specs := [fullSpec 2 2, fullSpec 4 1, windowSpec]
  pool := partlyCachedPool
  hashBlockSize := 2
  useEagle := false
  blockHashes := [10, 11, 12, 13]

theorem partlyCachedSearch_admissible (within : maxLength ≤ 8) :
    Admissible partlyCachedSearch maxLength := by
  have specs : ∀ spec ∈ partlyCachedSearch.specs,
      Searchable spec ∧ 0 < spec.blockSize ∧ 2 ∣ spec.blockSize := by
    simp [partlyCachedSearch, fullSpec, windowSpec, Searchable, KVCacheSpec.blockSize]
  refine ⟨by decide, rfl, fun spec member => (specs spec member).1,
    fun spec member => (specs spec member).2.1, fun spec member => (specs spec member).2.2, ?_⟩
  exact Nat.le_trans (Nat.div_le_div_right within) (by decide)

/-- The second full-attention list has two blocks of four tokens for a hit of four. -/
theorem second_full_too_long :
    Admissible partlyCachedSearch 8 ∧
      partlyCachedSearch.findLongestCacheHit 8 = some ([[1, 2], [5, 6], [7, 8]], 4) ∧
      ¬ ∃ lists hit, partlyCachedSearch.findLongestCacheHit 8 = some (lists, hit) ∧
        WellFormedHit partlyCachedSearch 8 lists hit := by
  have result : partlyCachedSearch.findLongestCacheHit 8 =
      some ([[1, 2], [5, 6], [7, 8]], 4) := by decide
  refine ⟨partlyCachedSearch_admissible 8 (Nat.le_refl _), result, ?_⟩
  rintro ⟨lists, hit, found, wellFormed⟩
  obtain ⟨rfl, rfl⟩ := found
  have length := wellFormed.length 1 (fullSpec 4 1) [5, 6] rfl rfl
  contradiction

/-- Bounded to the tokens that the window has, the hit is well formed. -/
theorem partlyCached_hit_wellFormed :
    ∃ lists hit, partlyCachedSearch.findLongestCacheHit 4 = some (lists, hit) ∧
      WellFormedHit partlyCachedSearch 4 lists hit := by
  refine (findLongestCacheHit_wellFormed_iff partlyCachedSearch 4
    (partlyCachedSearch_admissible 4 (by decide))).mpr ?_
  have groups : partlyCachedSearch.groups =
      [⟨fullSpec 2 2, [0]⟩, ⟨fullSpec 4 1, [1]⟩, ⟨windowSpec, [2]⟩] := by rfl
  intro first second rest same _ tokens group member
  rw [groups] at same
  obtain ⟨rfl, rfl, rfl⟩ : _ ∧ _ ∧ _ := by simpa using same
  obtain rfl := mem_singleton.mp member
  decide

end VllmDcu.HybridHit

import VllmDcu.AttentionGroups

/-! The hybrid coordinator's rounds. The first round gives every attention group
a hit; later rounds recompute all groups but those of full attention, until one
round keeps the length. Then every recomputed list has the final length. -/
namespace VllmDcu.HybridRounds
open Requests FreeBlockQueue BlockPool KVCacheInterface MathUtils CacheHit CacheHitRules
open AttentionGroups List Option Function

variable {Digest : Type}

/-! One search. -/

/-- Specs of the searchable kinds with block sizes that are multiples of the hash
block size, and a hash for every block that a hit could contain. -/
structure Admissible (search : HybridSearch Digest) (maxCacheHitLength : Nat) : Prop where
  hashPositive : 0 < search.hashBlockSize
  noEagle : search.useEagle = false
  searchable : ∀ spec ∈ search.specs, Searchable spec
  positive : ∀ spec ∈ search.specs, 0 < spec.blockSize
  multiple : ∀ spec ∈ search.specs, search.hashBlockSize ∣ spec.blockSize
  hashed : maxCacheHitLength / search.hashBlockSize ≤ search.blockHashes.length

def hashesOf (search : HybridSearch Digest) (spec : KVCacheSpec) : List (List Digest) :=
  hashesWithBlockSize search.blockHashes search.hashBlockSize spec.blockSize

/-- The length of one attention type's hit within a bound. -/
def hitTokens (search : HybridSearch Digest) (group : AttentionGroup) (maxLength : Nat) : Nat :=
  match search.find group maxLength with
  | some (blocks :: _) => blocks.length * group.spec.blockSize
  | _ => 0

variable (search : HybridSearch Digest) (group : AttentionGroup)

theorem group_spec_mem (member : group ∈ search.groups) : group.spec ∈ search.specs := by
  have grouping := attentionGroups_grouping search.specs
  obtain ⟨groupId, inIds⟩ := exists_mem_of_ne_nil _ (grouping.nonempty group member)
  exact mem_of_getElem? ((grouping.mem_ids group member groupId).mp inIds)

variable (bound : Nat)

theorem find_good (maxLength : Nat) (admissible : Admissible search bound)
    (within : maxLength ≤ bound) (group : AttentionGroup) (member : group ∈ search.groups) :
    ∃ lists blocks, search.find group maxLength = some lists ∧ lists.head? = some blocks ∧
      blocks.length * group.spec.blockSize = hitTokens search group maxLength ∧
      GoodHit search.pool (hashesOf search group.spec) group.spec group.groupIds
        (hitTokens search group maxLength) lists ∧
      hitTokens search group maxLength ≤ maxLength ∧
      lcmBlockSize search.specs ∣ hitTokens search group maxLength := by
  have inSpecs := group_spec_mem search group member
  have positive := admissible.positive _ inSpecs
  have hashed : maxLength / group.spec.blockSize ≤ (hashesOf search group.spec).length := by
    obtain ⟨scale, multiple⟩ := admissible.multiple _ inSpecs
    have divides : group.spec.blockSize / search.hashBlockSize = scale := by
      rw [multiple, Nat.mul_div_cancel_left _ admissible.hashPositive]
    simp only [hashesOf, hashesWithBlockSize, length_map, length_range, divides]
    rw [multiple, ← Nat.div_div_eq_div_mul]
    exact Nat.div_le_div_right (Nat.le_trans (Nat.div_le_div_right within) admissible.hashed)
  obtain ⟨lists, tokens, result, good, short, aligned⟩ :=
    findLongestCacheHit_good search.pool (hashesOf search group.spec) group.spec
      (admissible.searchable _ inSpecs) positive hashed
  have found : search.find group maxLength = some lists := by
    rw [← result, HybridSearch.find, admissible.noEagle]
    rfl
  have nonempty := (attentionGroups_grouping search.specs).nonempty group member
  cases lists with
  | nil =>
    have := good.count
    exact absurd (length_eq_zero_iff.mp this.symm) nonempty
  | cons blocks rest =>
    have length := good.length blocks mem_cons_self
    have tokensEq : hitTokens search group maxLength = tokens := by
      simp only [hitTokens, found, length]
    rw [tokensEq]
    exact ⟨_, blocks, found, rfl, length, good, short, aligned⟩

/-- The lists assigned to a group's KV cache groups are a hit of `tokens`. -/
def Holds (search : HybridSearch Digest) (byGroup : HitBlocks) (group : AttentionGroup)
    (tokens : Nat) : Prop :=
  ∃ lists, GoodHit search.pool (hashesOf search group.spec) group.spec group.groupIds tokens lists ∧
    ∀ (position groupId : Nat), group.groupIds[position]? = some groupId →
      byGroup groupId = lists[position]?

variable (byGroup : HitBlocks)

theorem holds_congr {byGroup' : HitBlocks} {group : AttentionGroup} {tokens : Nat}
    (same : ∀ groupId ∈ group.groupIds, byGroup' groupId = byGroup groupId)
    (holds : Holds search byGroup group tokens) : Holds search byGroup' group tokens := by
  obtain ⟨lists, good, assigned⟩ := holds
  refine ⟨lists, good, fun position groupId given => ?_⟩
  rw [same groupId (mem_of_getElem? given), assigned position groupId given]

theorem assign_other (groupIds : List Nat) (lists : List (List BlockId)) (groupId : Nat)
    (absent : groupId ∉ groupIds) :
    HybridSearch.assign byGroup groupIds lists groupId = byGroup groupId := by
  induction groupIds generalizing byGroup lists with
  | nil => simp [HybridSearch.assign]
  | cons first rest ih =>
    cases lists with
    | nil => simp [HybridSearch.assign]
    | cons blocks lists =>
      rw [mem_cons, not_or] at absent
      have := ih (update byGroup first (some blocks)) lists absent.2
      simp only [HybridSearch.assign, zip_cons_cons, foldl_cons] at this ⊢
      rw [this, update_of_ne absent.1]

theorem assign_at (groupIds : List Nat) (lists : List (List BlockId)) (nodup : groupIds.Nodup)
    (count : lists.length = groupIds.length) (position groupId : Nat)
    (given : groupIds[position]? = some groupId) :
    HybridSearch.assign byGroup groupIds lists groupId = lists[position]? := by
  induction groupIds generalizing byGroup lists position with
  | nil => simp at given
  | cons first rest ih =>
    cases lists with
    | nil => simp at count
    | cons blocks lists =>
      obtain ⟨absent, nodupRest⟩ := nodup_cons.mp nodup
      cases position with
      | zero =>
        simp only [getElem?_cons_zero, some.injEq] at given
        subst given
        have := assign_other (update byGroup first (some blocks)) rest lists first absent
        simp only [HybridSearch.assign, zip_cons_cons, foldl_cons] at this ⊢
        simp [this]
      | succ position =>
        exact ih (update byGroup first (some blocks)) lists nodupRest
          (by simpa using count) position (by simpa using given)

/-! One round over the groups. -/

/-- The length that the searches of `groups`, one after the other, leave. -/
def passTokens (search : HybridSearch Digest) (groups : List AttentionGroup) (length : Nat) : Nat :=
  groups.foldl (fun length group => hitTokens search group length) length

theorem passTokens_le (admissible : Admissible search bound) (groups : List AttentionGroup)
    (members : ∀ group ∈ groups, group ∈ search.groups) (length : Nat) (within : length ≤ bound) :
    passTokens search groups length ≤ length := by
  induction groups generalizing length with
  | nil => exact Nat.le_refl _
  | cons group rest ih =>
    obtain ⟨_, _, _, _, _, _, short, _⟩ := find_good search bound length admissible within group
      (members group mem_cons_self)
    have later := ih (fun other member => members other (mem_cons_of_mem _ member))
      (hitTokens search group length) (Nat.le_trans short within)
    exact Nat.le_trans later short

/-- A round that keeps the length keeps it at every group. -/
theorem passTokens_fixed (admissible : Admissible search bound) (groups : List AttentionGroup)
    (members : ∀ group ∈ groups, group ∈ search.groups) (length : Nat) (within : length ≤ bound)
    (kept : length ≤ passTokens search groups length) :
    ∀ group ∈ groups, hitTokens search group length = length := by
  induction groups with
  | nil => simp
  | cons group rest ih =>
    have restMembers : ∀ other ∈ rest, other ∈ search.groups := fun other member =>
      members other (mem_cons_of_mem _ member)
    obtain ⟨_, _, _, _, _, _, short, _⟩ := find_good search bound length admissible within group
      (members group mem_cons_self)
    have later := passTokens_le search bound admissible rest restMembers
      (hitTokens search group length) (Nat.le_trans short within)
    have here : hitTokens search group length = length := Nat.le_antisymm short
      (Nat.le_trans kept later)
    have keptRest : length ≤ passTokens search rest length := by
      have := kept
      simp only [passTokens, foldl_cons, here] at this
      exact this
    intro other member
    rcases mem_cons.mp member with rfl | inRest
    · exact here
    · exact ih restMembers keptRest other inRest

theorem passTokens_of_fixed (groups : List AttentionGroup) (length : Nat)
    (fixed : ∀ group ∈ groups, hitTokens search group length = length) :
    passTokens search groups length = length := by
  induction groups with
  | nil => rfl
  | cons group rest ih =>
    have here := fixed group mem_cons_self
    have later := ih fun other member => fixed other (mem_cons_of_mem _ member)
    simp only [passTokens, foldl_cons, here]
    exact later

theorem passTokens_dvd (admissible : Admissible search bound) (groups : List AttentionGroup)
    (members : ∀ group ∈ groups, group ∈ search.groups) (length : Nat) (within : length ≤ bound)
    (aligned : groups = [] → lcmBlockSize search.specs ∣ length) :
    lcmBlockSize search.specs ∣ passTokens search groups length := by
  induction groups generalizing length with
  | nil => exact aligned rfl
  | cons group rest ih =>
    obtain ⟨_, _, _, _, _, _, short, divides⟩ := find_good search bound length admissible within
      group (members group mem_cons_self)
    exact ih (fun other member => members other (mem_cons_of_mem _ member)) _
      (Nat.le_trans short within) fun _ => divides

def Disjoint (first second : AttentionGroup) : Prop :=
  ∀ groupId ∈ first.groupIds, groupId ∉ second.groupIds

theorem groups_disjoint : search.groups.Pairwise Disjoint := by
  have grouping := attentionGroups_grouping search.specs
  refine grouping.distinct.imp_of_mem ?_
  intro first second inFirst inSecond differ groupId member also
  have one := (grouping.mem_ids first inFirst groupId).mp member
  have two := (grouping.mem_ids second inSecond groupId).mp also
  exact differ (some.inj (one.symm.trans two))

/-- A round over groups that are all searched: each keeps the hit of its own search. -/
theorem pass_find (admissible : Admissible search bound) (groups : List AttentionGroup)
    (members : ∀ group ∈ groups, group ∈ search.groups) (disjoint : groups.Pairwise Disjoint)
    (length : Nat) (within : length ≤ bound) (byGroup : HitBlocks)
    (searched : ∀ group ∈ groups, group.spec.isFullAttention →
      ∀ groupId ∈ group.groupIds, byGroup groupId = none) :
    ∃ byGroup', search.pass groups length byGroup =
        some (passTokens search groups length, byGroup') ∧
      (∀ groupId, (∀ group ∈ groups, groupId ∉ group.groupIds) →
        byGroup' groupId = byGroup groupId) ∧
      ∀ before group after, groups = before ++ group :: after →
        Holds search byGroup' group (passTokens search (before ++ [group]) length) := by
  induction groups generalizing length byGroup with
  | nil =>
    refine ⟨byGroup, rfl, fun _ _ => rfl, ?_⟩
    intro before group after split
    simp at split
  | cons group rest ih =>
    have member := members group mem_cons_self
    have grouping := attentionGroups_grouping search.specs
    obtain ⟨apart, disjointRest⟩ := pairwise_cons.mp disjoint
    obtain ⟨lists, blocks, found, head, blocksLength, good, short, _⟩ :=
      find_good search bound length admissible within group member
    obtain ⟨firstId, first⟩ : ∃ firstId, group.groupIds.head? = some firstId :=
      ne_none_iff_exists'.mp fun none =>
        grouping.nonempty group member (head?_eq_none_iff.mp none)
    have inIds : firstId ∈ group.groupIds := mem_of_head? first
    have notKnown : ¬ (group.spec.isFullAttention ∧ (byGroup firstId).isSome) := by
      rintro ⟨full, known⟩
      rw [searched group mem_cons_self full firstId inIds] at known
      simp at known
    let assigned := HybridSearch.assign byGroup group.groupIds lists
    have unassigned (groupId : Nat) (absent : groupId ∉ group.groupIds) :
        assigned groupId = byGroup groupId := assign_other byGroup group.groupIds lists _ absent
    obtain ⟨byGroup', result, others, holds⟩ := ih
      (fun other inRest => members other (mem_cons_of_mem _ inRest)) disjointRest
      (hitTokens search group length) (Nat.le_trans short within) assigned (by
        intro other inRest full groupId inOther
        rw [unassigned groupId fun inGroup => apart other inRest groupId inGroup inOther]
        exact searched other (mem_cons_of_mem _ inRest) full groupId inOther)
    refine ⟨byGroup', ?_, ?_, ?_⟩
    · simp only [HybridSearch.pass, first, notKnown, ↓reduceIte, found, head, blocksLength]
      exact result
    · intro groupId absent
      rw [others groupId fun other inRest => absent other (mem_cons_of_mem _ inRest)]
      exact unassigned groupId (absent group mem_cons_self)
    · intro before other after split
      rcases cons_eq_append_iff.mp split with ⟨rfl, same⟩ | ⟨front, rfl, restSplit⟩
      · obtain ⟨rfl, rfl⟩ := cons.inj same
        refine ⟨lists, good, fun position groupId given => ?_⟩
        have inOther := mem_of_getElem? given
        rw [others groupId fun later inRest => apart later inRest groupId inOther]
        exact assign_at byGroup other.groupIds lists (grouping.nodup other member) good.count
          position groupId given
      · exact holds front other after restSplit

/-- Full-attention groups that have their hit are not searched again. -/
theorem pass_known (known rest : List AttentionGroup) (length : Nat) (byGroup : HitBlocks)
    (full : ∀ group ∈ known, group.spec.isFullAttention = true)
    (assigned : ∀ group ∈ known, ∃ groupId, group.groupIds.head? = some groupId ∧
      (byGroup groupId).isSome) (aligned : ∀ group ∈ known, group.spec.blockSize ∣ length) :
    search.pass (known ++ rest) length byGroup = search.pass rest length byGroup := by
  induction known with
  | nil => rfl
  | cons group known ih =>
    obtain ⟨groupId, first, some⟩ := assigned group mem_cons_self
    simp only [cons_append, HybridSearch.pass, first, full group mem_cons_self, some,
      and_self, ↓reduceIte, Nat.div_mul_cancel (aligned group mem_cons_self)]
    exact ih (fun other member => full other (mem_cons_of_mem _ member))
      (fun other member => assigned other (mem_cons_of_mem _ member))
      fun other member => aligned other (mem_cons_of_mem _ member)

/-! The rounds of one search. -/

def fullGroups (search : HybridSearch Digest) : List AttentionGroup :=
  (splitKvCacheGroups search.specs).filter fun group => group.spec.isFullAttention

def otherGroups (search : HybridSearch Digest) : List AttentionGroup :=
  (splitKvCacheGroups search.specs).filter fun group => !group.spec.isFullAttention

theorem groups_eq : search.groups = fullGroups search ++ otherGroups search := rfl

theorem fullGroups_full (member : group ∈ fullGroups search) : group.spec.isFullAttention = true :=
  (mem_filter.mp member).2

theorem otherGroups_not_full (member : group ∈ otherGroups search) :
    group.spec.isFullAttention = false := by
  simpa using (mem_filter.mp member).2

theorem fullGroups_mem (member : group ∈ fullGroups search) : group ∈ search.groups :=
  mem_append_left _ member

theorem otherGroups_mem (member : group ∈ otherGroups search) : group ∈ search.groups :=
  mem_append_right _ member

/-- The lists after a round that kept the length: every searched group holds it. -/
theorem holds_of_fixed {groups : List AttentionGroup} {length : Nat} {byGroup : HitBlocks}
    (fixed : ∀ group ∈ groups, hitTokens search group length = length)
    (holds : ∀ before group after, groups = before ++ group :: after →
      Holds search byGroup group (passTokens search (before ++ [group]) length)) :
    ∀ group ∈ groups, Holds search byGroup group length := by
  intro group member
  obtain ⟨before, after, split⟩ := append_of_mem member
  have held := holds before group after split
  rwa [passTokens_of_fixed search (before ++ [group]) length] at held
  intro other inFront
  apply fixed
  rw [split]
  rcases mem_append.mp inFront with inBefore | here
  · exact mem_append_left _ inBefore
  · exact mem_append_right _ (mem_singleton.mp here ▸ mem_cons_self)

/-- The rounds after the first: the full-attention lists stay, all others get the
final length. -/
theorem hitLoop_later (admissible : Admissible search bound)
    (notSimple : search.isSimpleHybrid = false) (fuel hit : Nat) (byGroup : HitBlocks)
    (enough : hit < fuel) (within : hit ≤ bound) (aligned : lcmBlockSize search.specs ∣ hit)
    (assigned : ∀ group ∈ fullGroups search, ∃ groupId, group.groupIds.head? = some groupId ∧
      (byGroup groupId).isSome) :
    ∃ hit' byGroup', search.hitLoop fuel hit byGroup = some (hit', byGroup') ∧ hit' ≤ hit ∧
      lcmBlockSize search.specs ∣ hit' ∧
      (∀ group ∈ fullGroups search, ∀ groupId ∈ group.groupIds,
        byGroup' groupId = byGroup groupId) ∧
      (∀ group ∈ otherGroups search, Holds search byGroup' group hit') ∧
      ((∀ group ∈ otherGroups search, hitTokens search group hit = hit) → hit' = hit) := by
  induction fuel generalizing hit byGroup with
  | zero => omega
  | succ fuel ih =>
    have members := otherGroups_mem search
    obtain ⟨_, disjoint, across⟩ := pairwise_append.mp (groups_disjoint search)
    obtain ⟨after, result, others, holds⟩ := pass_find search bound admissible
      (otherGroups search) members disjoint hit within byGroup (by
        intro group member full
        rw [otherGroups_not_full search group member] at full
        contradiction)
    have round : search.pass search.groups hit byGroup =
        some (passTokens search (otherGroups search) hit, after) := by
      rw [groups_eq, pass_known search _ _ _ _ (fullGroups_full search) assigned]
      · exact result
      · intro group member
        exact (blockSize_dvd_lcm search.specs group (fullGroups_mem search group member)).trans
          aligned
    have kept (group : AttentionGroup) (member : group ∈ fullGroups search) (groupId : Nat)
        (inIds : groupId ∈ group.groupIds) : after groupId = byGroup groupId :=
      others groupId fun other inOthers => across group member other inOthers groupId inIds
    have short := passTokens_le search bound admissible (otherGroups search) members hit within
    by_cases stop : passTokens search (otherGroups search) hit ≥ hit
    · have fixed := passTokens_fixed search bound admissible (otherGroups search) members hit
        within stop
      refine ⟨hit, after, ?_, Nat.le_refl _, aligned, kept,
        holds_of_fixed search fixed holds, fun _ => rfl⟩
      simp only [HybridSearch.hitLoop, round, stop, ↓reduceIte]
    · let next := passTokens search (otherGroups search) hit
      have nextAligned : lcmBlockSize search.specs ∣ next :=
        passTokens_dvd search bound admissible _ members hit within fun _ => aligned
      obtain ⟨hit', byGroup', rest, le, divides, fulls, held, _⟩ := ih next after
        (by omega) (by omega) nextAligned (by
          intro group member
          obtain ⟨groupId, first, some⟩ := assigned group member
          exact ⟨groupId, first, by rwa [kept group member groupId (mem_of_head? first)]⟩)
      refine ⟨hit', byGroup', ?_, Nat.le_trans le short, divides, ?_, held, ?_⟩
      · simp only [HybridSearch.hitLoop, round, stop, notSimple, Bool.false_eq_true, ↓reduceIte]
        exact rest
      · intro group member groupId inIds
        rw [fulls group member groupId inIds, kept group member groupId inIds]
      · intro fixed
        exact absurd (passTokens_of_fixed search _ hit fixed).ge stop

/-- What the whole search leaves before the truncation. -/
structure Searched (search : HybridSearch Digest) (maxLength hit : Nat) (byGroup : HitBlocks) :
    Prop where
  bounded : hit ≤ passTokens search search.groups maxLength
  aligned : search.groups ≠ [] → lcmBlockSize search.specs ∣ hit
  full : ∀ before group after, fullGroups search = before ++ group :: after →
    Holds search byGroup group (passTokens search (before ++ [group]) maxLength)
  other : ∀ group ∈ otherGroups search, Holds search byGroup group hit
  accepted : (∀ group ∈ otherGroups search,
      hitTokens search group (passTokens search (fullGroups search) maxLength) =
        passTokens search (fullGroups search) maxLength) →
    hit = passTokens search (fullGroups search) maxLength

theorem passTokens_append {first second : List AttentionGroup} {length : Nat} :
    passTokens search (first ++ second) length =
      passTokens search second (passTokens search first length) :=
  foldl_append

/-- With one other group the first round is the last. -/
theorem simple_last (simple : search.isSimpleHybrid = true) {before : List AttentionGroup}
    {group : AttentionGroup} {after : List AttentionGroup}
    (split : search.groups = before ++ group :: after)
    (notFull : group.spec.isFullAttention = false) : before ++ [group] = search.groups := by
  unfold HybridSearch.isSimpleHybrid at simple
  split at simple
  · rename_i first second groups
    rw [groups] at split ⊢
    cases before with
    | nil =>
      obtain ⟨rfl, _⟩ := cons.inj split
      rw [simple] at notFull
      contradiction
    | cons head before =>
      have := congrArg length split
      simp only [length_cons, length_nil, cons_append, length_append] at this
      have none : after = [] := eq_nil_of_length_eq_zero (by omega)
      rw [split, none]
  · contradiction

theorem holds_head (group : AttentionGroup) (tokens : Nat) (member : group ∈ search.groups)
    (holds : Holds search byGroup group tokens) :
    ∃ groupId, group.groupIds.head? = some groupId ∧ (byGroup groupId).isSome := by
  have nonempty := (attentionGroups_grouping search.specs).nonempty group member
  obtain ⟨lists, good, assigned⟩ := holds
  cases ids : group.groupIds with
  | nil => exact absurd ids nonempty
  | cons groupId rest =>
    refine ⟨groupId, rfl, ?_⟩
    have count := good.count
    rw [ids] at count
    rw [assigned 0 groupId (by rw [ids]; rfl)]
    simp [count]

theorem hitLoop_searched (maxLength : Nat) (admissible : Admissible search maxLength) :
    ∃ hit byGroup, search.hitLoop (maxLength + 1) maxLength (fun _ => none) =
        some (hit, byGroup) ∧ Searched search maxLength hit byGroup := by
  let length := passTokens search search.groups maxLength
  obtain ⟨byGroup, round, _, holds⟩ := pass_find search maxLength admissible search.groups
    (fun _ member => member) (groups_disjoint search) maxLength (Nat.le_refl _) (fun _ => none)
    fun _ _ _ _ _ => rfl
  have split : length = passTokens search (otherGroups search)
      (passTokens search (fullGroups search) maxLength) :=
    passTokens_append search
  have within : length ≤ maxLength := passTokens_le search maxLength admissible search.groups
    (fun _ member => member) maxLength (Nat.le_refl _)
  have aligned (some : search.groups ≠ []) : lcmBlockSize search.specs ∣ length :=
    passTokens_dvd search maxLength admissible search.groups (fun _ member => member) maxLength
      (Nat.le_refl _) fun none => absurd none some
  have full : ∀ before group after, fullGroups search = before ++ group :: after →
      Holds search byGroup group (passTokens search (before ++ [group]) maxLength) := by
    intro before group after same
    apply holds before group (after ++ otherGroups search)
    rw [groups_eq, same, append_assoc, cons_append]
  have accepted (fixed : ∀ group ∈ otherGroups search,
      hitTokens search group (passTokens search (fullGroups search) maxLength) =
        passTokens search (fullGroups search) maxLength) :
      length = passTokens search (fullGroups search) maxLength := by
    rw [split, passTokens_of_fixed search _ _ fixed]
  by_cases stop : length ≥ maxLength
  · have same : length = maxLength := Nat.le_antisymm within stop
    have fixed := passTokens_fixed search maxLength admissible search.groups
      (fun _ member => member) maxLength (Nat.le_refl _) stop
    have held := holds_of_fixed search fixed holds
    refine ⟨maxLength, byGroup, ?_, stop, ?_, full, ?_, ?_⟩
    · simp only [HybridSearch.hitLoop, round, ↓reduceIte, show passTokens search search.groups
        maxLength ≥ maxLength from stop]
    · exact fun some => same ▸ aligned some
    · exact fun group member => held group (otherGroups_mem search group member)
    · exact fun fixed => same ▸ accepted fixed
  · by_cases simple : search.isSimpleHybrid = true
    · refine ⟨length, byGroup, ?_, Nat.le_refl _, aligned, full, ?_, accepted⟩
      · simp only [HybridSearch.hitLoop, round, simple, ↓reduceIte, show ¬ passTokens search
          search.groups maxLength ≥ maxLength from stop]
        rfl
      · intro group member
        obtain ⟨before, after, same⟩ := append_of_mem (otherGroups_mem search group member)
        have last := simple_last search simple same (otherGroups_not_full search group member)
        have held := holds before group after same
        rwa [last] at held
    · have notSimple : search.isSimpleHybrid = false := by simpa using simple
      have some : search.groups ≠ [] := by
        intro none
        apply stop
        simp only [length, none, passTokens, foldl_nil]
        exact Nat.le_refl _
      have assigned : ∀ group ∈ fullGroups search, ∃ groupId,
          group.groupIds.head? = Option.some groupId ∧ (byGroup groupId).isSome := by
        intro group member
        obtain ⟨before, after, same⟩ := append_of_mem member
        exact holds_head search byGroup group _ (fullGroups_mem search group member)
          (full before group after same)
      obtain ⟨hit, byGroup', rest, le, divides, fulls, held, keeps⟩ :=
        hitLoop_later search maxLength admissible notSimple maxLength length byGroup
          (Nat.lt_of_not_le stop) within (aligned some) assigned
      refine ⟨hit, byGroup', ?_, le, fun _ => divides, ?_, held, ?_⟩
      · simp only [HybridSearch.hitLoop, round, notSimple, Bool.false_eq_true, ↓reduceIte,
          show ¬ passTokens search search.groups maxLength ≥ maxLength from stop]
        exact rest
      · intro before group after same
        have member : group ∈ fullGroups search := by
          rw [same]
          exact mem_append_right _ mem_cons_self
        exact holds_congr search byGroup (fulls group member) (full before group after same)
      · intro fixed
        have first := accepted fixed
        rw [keeps fun group member => first ▸ fixed group member, first]

end VllmDcu.HybridRounds

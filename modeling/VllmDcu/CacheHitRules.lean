import VllmDcu.CacheHit
import Mathlib.Tactic.Linarith

/-! What one attention type's search returns: block lists of one aligned length
within the bound, whose blocks are cached under the request's own hashes wherever
the attention of the next token reads them. -/
namespace VllmDcu.CacheHitRules
open Requests FreeBlockQueue BlockPool KVCacheInterface MathUtils CacheHit List Option

variable {Digest : Type}

/-- Entry `index` of every group's list is cached under the hash at that index. -/
def CachedAt (pool : Pool Digest) (blockHashes : List (List Digest)) (groupIds : List Nat)
    (lists : List (List BlockId)) (index : Nat) : Prop :=
  ∃ hash, blockHashes[index]? = some hash ∧
    ∀ (position groupId : Nat), groupIds[position]? = some groupId →
      ∃ (blocks : List BlockId) (block : BlockId),
        lists[position]? = some blocks ∧ blocks[index]? = some block ∧
        BlockHashToBlockMap.getOneBlock pool.cachedBlockHashToBlock (hash, groupId) = some block

variable (pool : Pool Digest)

theorem getCachedBlock_spec (hash : List Digest) (groupIds : List Nat) (cached : List BlockId)
    (found : pool.getCachedBlock hash groupIds = some cached) :
    cached.length = groupIds.length ∧
      ∀ (position groupId : Nat), groupIds[position]? = some groupId →
        ∃ block, cached[position]? = some block ∧
          BlockHashToBlockMap.getOneBlock pool.cachedBlockHashToBlock (hash, groupId) =
            some block := by
  induction groupIds generalizing cached with
  | nil =>
    simp only [Pool.getCachedBlock, mapM_nil, Option.pure_def, some.injEq] at found
    subst found
    simp
  | cons groupId rest ih =>
    simp only [Pool.getCachedBlock, mapM_cons, bind_eq_bind,
      bind_eq_some_iff, Option.pure_def, some.injEq] at found
    obtain ⟨block, here, others, tail, rfl⟩ := found
    obtain ⟨length, entries⟩ := ih others tail
    refine ⟨by simp [length], ?_⟩
    intro position groupId' given
    cases position with
    | zero =>
      simp only [getElem?_cons_zero, some.injEq] at given
      exact ⟨block, rfl, given ▸ here⟩
    | succ position => exact entries position groupId' (by simpa using given)

theorem alignedLength_le (blockSize alignmentTokens length : Nat) :
    alignedLength blockSize alignmentTokens length ≤ length := by
  induction length with
  | zero => exact Nat.le_refl _
  | succ length ih =>
    unfold alignedLength
    split
    · exact Nat.le_succ_of_le ih
    · exact Nat.le_refl _

theorem alignedLength_dvd (blockSize alignmentTokens length : Nat) :
    alignmentTokens ∣ alignedLength blockSize alignmentTokens length * blockSize := by
  induction length with
  | zero => simp [alignedLength]
  | succ length ih =>
    unfold alignedLength
    split
    · exact ih
    · rename_i aligned
      rw [not_and_or, not_not, not_not] at aligned
      rcases aligned with same | divides
      · exact same ▸ Nat.dvd_mul_left _ _
      · exact Nat.dvd_of_mod_eq_zero divides

/-- Rows of one block for each group, each row found under the hash of its index. -/
structure Rows (pool : Pool Digest) (blockHashes : List (List Digest)) (groupIds : List Nat)
    (rows : List (List BlockId)) : Prop where
  length : rows.length ≤ blockHashes.length
  found : ∀ (index : Nat) (row : List BlockId), rows[index]? = some row →
    ∃ hash, blockHashes[index]? = some hash ∧ pool.getCachedBlock hash groupIds = some row

theorem prefixRows_rows (groupIds : List Nat) (blockHashes : List (List Digest)) :
    Rows pool blockHashes groupIds (prefixRows pool groupIds blockHashes) := by
  induction blockHashes with
  | nil => exact ⟨Nat.le_refl _, by simp [prefixRows]⟩
  | cons hash rest ih =>
    unfold prefixRows
    cases found : pool.getCachedBlock hash groupIds with
    | none => exact ⟨Nat.zero_le _, by simp⟩
    | some cached =>
      refine ⟨by simpa using ih.length, ?_⟩
      intro index row given
      cases index with
      | zero => exact ⟨hash, rfl, by simpa [found] using given⟩
      | succ index => simpa using ih.found index row (by simpa using given)

variable (blockHashes : List (List Digest))

theorem rows_take (groupIds : List Nat) {rows : List (List BlockId)} (count bound : Nat)
    (spelled : Rows pool (blockHashes.take bound) groupIds rows) :
    Rows pool blockHashes groupIds (rows.take count) := by
  constructor
  · have := spelled.length
    simp only [length_take] at this ⊢
    omega
  · intro index row given
    have inside : index < count := by
      by_contra outside
      simp [outside] at given
    rw [getElem?_take_of_lt inside] at given
    obtain ⟨hash, atIndex, cached⟩ := spelled.found index row given
    refine ⟨hash, ?_, cached⟩
    by_cases below : index < bound
    · rwa [getElem?_take_of_lt below] at atIndex
    · simp [below] at atIndex

theorem columns_spec {groupIds : List Nat} {rows : List (List BlockId)}
    (spelled : Rows pool blockHashes groupIds rows) :
    (columns groupIds.length rows).length = groupIds.length ∧
      (∀ blocks ∈ columns groupIds.length rows, blocks.length = rows.length) ∧
      ∀ index, index < rows.length →
        CachedAt pool blockHashes groupIds (columns groupIds.length rows) index := by
  have rowLength : ∀ row ∈ rows, row.length = groupIds.length := by
    intro row member
    obtain ⟨index, inside⟩ := getElem?_of_mem member
    obtain ⟨hash, _, cached⟩ := spelled.found index row inside
    exact (getCachedBlock_spec pool hash groupIds row cached).1
  -- below the number of groups every row has an entry, so nothing is filtered out
  have column (group : Nat) (inside : group < groupIds.length) :
      rows.filterMap (fun row => row[group]?) = rows.map fun row => row.getD group 0 := by
    rw [← filterMap_eq_map]
    apply filterMap_congr
    intro row member
    have bound : group < row.length := by rw [rowLength row member]; exact inside
    simp [getElem?_eq_getElem bound, getD_eq_getElem?_getD]
  refine ⟨by simp [columns], ?_, ?_⟩
  · intro blocks member
    obtain ⟨group, inside, rfl⟩ := List.mem_map.mp member
    rw [column group (mem_range.mp inside), length_map]
  · intro index inside
    obtain ⟨hash, atIndex, cached⟩ := spelled.found index rows[index] (getElem?_eq_getElem inside)
    refine ⟨hash, atIndex, ?_⟩
    intro position groupId given
    have bound : position < groupIds.length := (List.getElem?_eq_some_iff.mp given).1
    obtain ⟨block, entry, one⟩ :=
      (getCachedBlock_spec pool hash groupIds rows[index] cached).2 position groupId given
    refine ⟨_, block, by simp [columns, bound]; rfl, ?_, one⟩
    rw [column position bound, getElem?_map, getElem?_eq_getElem inside]
    simp [getD_eq_getElem?_getD, entry]

/-- The blocks that the attention of the token after `tokens` reads. -/
def Needs (spec : KVCacheSpec) (tokens index : Nat) : Prop :=
  index * spec.blockSize < tokens ∧
    match spec with
    | .slidingWindow spec => tokens < (index + 1) * spec.blockSize + (spec.slidingWindow - 1)
    | .mamba spec => (index + 1) * spec.blockSize = tokens
    | _ => True

/-- A hit of `tokens` tokens for all KV cache groups of one spec. -/
structure GoodHit (pool : Pool Digest) (blockHashes : List (List Digest)) (spec : KVCacheSpec)
    (groupIds : List Nat) (tokens : Nat) (lists : List (List BlockId)) : Prop where
  count : lists.length = groupIds.length
  length : ∀ blocks ∈ lists, blocks.length * spec.blockSize = tokens
  cached : ∀ index, Needs spec tokens index → CachedAt pool blockHashes groupIds lists index

variable (spec : KVCacheSpec)

theorem columns_good (groupIds : List Nat) (rows : List (List BlockId))
    (spelled : Rows pool blockHashes groupIds rows) :
    GoodHit pool blockHashes spec groupIds (rows.length * spec.blockSize)
      (columns groupIds.length rows) := by
  obtain ⟨count, lengths, cached⟩ := columns_spec pool blockHashes spelled
  refine ⟨count, fun blocks member => by rw [lengths blocks member], ?_⟩
  intro index needed
  exact cached index (Nat.lt_of_mul_lt_mul_right needed.1)

theorem fullAttentionHit_good {groupIds : List Nat} {maxLength alignmentTokens : Nat} :
    ∃ tokens, GoodHit pool blockHashes spec groupIds tokens
        (fullAttentionHit blockHashes maxLength groupIds pool spec.blockSize false
          alignmentTokens) ∧
      tokens ≤ maxLength ∧ alignmentTokens ∣ tokens := by
  have prefixed := prefixRows_rows pool groupIds (blockHashes.take (maxLength / spec.blockSize))
  generalize given : prefixRows pool groupIds (blockHashes.take (maxLength / spec.blockSize)) = rows
  rw [given] at prefixed
  have bound : rows.length ≤ maxLength / spec.blockSize :=
    Nat.le_trans prefixed.length (by rw [length_take]; exact Nat.min_le_left _ _)
  have short := alignedLength_le spec.blockSize alignmentTokens rows.length
  have spelled := rows_take pool blockHashes groupIds
    (alignedLength spec.blockSize alignmentTokens rows.length) _ prefixed
  have length : (rows.take (alignedLength spec.blockSize alignmentTokens rows.length)).length =
      alignedLength spec.blockSize alignmentTokens rows.length := by
    rw [length_take, min_eq_left short]
  have good := columns_good pool blockHashes spec groupIds _ spelled
  rw [length] at good
  refine ⟨alignedLength spec.blockSize alignmentTokens rows.length * spec.blockSize, ?_, ?_,
    alignedLength_dvd _ _ _⟩
  · simpa only [fullAttentionHit, given, Bool.false_eq_true, ↓reduceIte] using good
  · exact Nat.le_trans (Nat.mul_le_mul_right _ (Nat.le_trans short bound))
      (Nat.div_mul_le_self _ _)

/-- The loop's lists: `total` entries each, the `cont` entries from `index` on
cached. -/
structure Scanned (pool : Pool Digest) (blockHashes : List (List Digest)) (groupIds : List Nat)
    (total index cont : Nat) (lists : List (List BlockId)) : Prop where
  count : lists.length = groupIds.length
  length : ∀ blocks ∈ lists, blocks.length = total
  inside : index + cont ≤ total
  cached : ∀ entry, index ≤ entry → entry < index + cont →
    CachedAt pool blockHashes groupIds lists entry

theorem cachedAt_take (groupIds : List Nat) (lists : List (List BlockId)) (index bound : Nat)
    (inside : index < bound) (cached : CachedAt pool blockHashes groupIds lists index) :
    CachedAt pool blockHashes groupIds (lists.map (·.take bound)) index := by
  obtain ⟨hash, atIndex, entries⟩ := cached
  refine ⟨hash, atIndex, ?_⟩
  intro position groupId given
  obtain ⟨blocks, block, list, entry, one⟩ := entries position groupId given
  exact ⟨blocks.take bound, block, by simp [list], by rwa [getElem?_take_of_lt inside], one⟩

/-- Writing the found row into the lists extends the scanned stretch by one. -/
theorem scanned_set (groupIds : List Nat) (total index cont : Nat) (lists : List (List BlockId))
    (hash : List Digest) (row : List BlockId) (atIndex : blockHashes[index]? = some hash)
    (found : pool.getCachedBlock hash groupIds = some row)
    (scanned : Scanned pool blockHashes groupIds total (index + 1) cont lists) :
    Scanned pool blockHashes groupIds total index (cont + 1)
      (lists.zipWith (fun blocks block => blocks.set index block) row) := by
  obtain ⟨rowLength, rowEntries⟩ := getCachedBlock_spec pool hash groupIds row found
  have bound := scanned.inside
  have list (position groupId : Nat) (given : groupIds[position]? = some groupId) :
      ∃ blocks block, lists[position]? = some blocks ∧ row[position]? = some block ∧
        (lists.zipWith (fun blocks block => blocks.set index block) row)[position]? =
          some (blocks.set index block) ∧ blocks.length = total := by
    have inside : position < groupIds.length := (List.getElem?_eq_some_iff.mp given).1
    have inLists : position < lists.length := by rw [scanned.count]; exact inside
    have inRow : position < row.length := by rw [rowLength]; exact inside
    refine ⟨lists[position], row[position], getElem?_eq_getElem inLists,
      getElem?_eq_getElem inRow, ?_, scanned.length _ (getElem_mem inLists)⟩
    simp [getElem?_zipWith, getElem?_eq_getElem inLists, getElem?_eq_getElem inRow]
  refine ⟨?_, ?_, by omega, ?_⟩
  · rw [length_zipWith, scanned.count, rowLength, min_self]
  · intro blocks member
    obtain ⟨position, entry⟩ := getElem?_of_mem member
    simp only [getElem?_zipWith] at entry
    split at entry
    · rename_i old block inLists _
      rw [← some.inj entry, length_set]
      exact scanned.length old (mem_of_getElem? inLists)
    · contradiction
  · intro entry lower upper
    rcases Nat.eq_or_lt_of_le lower with same | above
    · subst same
      refine ⟨hash, atIndex, ?_⟩
      intro position groupId given
      obtain ⟨blocks, block, inLists, inRow, set, length⟩ := list position groupId given
      obtain ⟨block', inRow', one⟩ := rowEntries position groupId given
      rw [inRow, some.injEq] at inRow'
      exact ⟨_, block, set, by rw [getElem?_set_self (by omega)], inRow' ▸ one⟩
    · obtain ⟨entryHash, atEntry, entries⟩ := scanned.cached entry above (by omega)
      refine ⟨entryHash, atEntry, ?_⟩
      intro position groupId given
      obtain ⟨blocks, block, inLists, inRow, set, length⟩ := list position groupId given
      obtain ⟨blocks', block', inLists', atBlocks, one⟩ := entries position groupId given
      rw [inLists, some.injEq] at inLists'
      subst inLists'
      exact ⟨_, block', set, by rwa [getElem?_set_ne (by omega)], one⟩

/-- What the loop returns: enough contiguous blocks that end at an aligned
length, or all cached blocks from the start on. -/
def Found (pool : Pool Digest) (blockHashes : List (List Digest)) (groupIds : List Nat)
    (blockSize alignmentTokens total : Nat) (needed : Int)
    (result : List (List BlockId) × Nat × Bool) : Prop :=
  if result.2.2 then
    ∃ index, result.2.1 ≥ needed ∧ alignmentTokens ∣ (index + result.2.1) * blockSize ∧
      index + result.2.1 ≤ total ∧
      Scanned pool blockHashes groupIds (index + result.2.1) index result.2.1 result.1
  else Scanned pool blockHashes groupIds total 0 result.2.1 result.1

theorem slidingWindowLoop_found (groupIds : List Nat) (blockSize alignmentTokens total : Nat)
    (needed : Int) (hashed : total ≤ blockHashes.length) (index cont : Nat)
    (lists : List (List BlockId))
    (aligned : 0 < cont → alignmentTokens ∣ (index + cont) * blockSize)
    (scanned : Scanned pool blockHashes groupIds total index cont lists) :
    ∃ result, slidingWindowLoop blockHashes groupIds pool blockSize alignmentTokens needed index cont
        lists = some result ∧
      Found pool blockHashes groupIds blockSize alignmentTokens total needed result := by
  induction index generalizing cont lists with
  | zero => exact ⟨_, rfl, by simpa [Found] using scanned⟩
  | succ index ih =>
    have bound := scanned.inside
    have inside : index < blockHashes.length := by omega
    have empty : Scanned pool blockHashes groupIds total index 0 lists :=
      ⟨scanned.count, scanned.length, by omega, fun entry lower upper => by omega⟩
    unfold slidingWindowLoop
    simp only [getElem?_eq_getElem inside]
    cases found : pool.getCachedBlock blockHashes[index] groupIds with
    | none => exact ih 0 lists (fun some => absurd some (Nat.lt_irrefl 0)) empty
    | some row =>
      by_cases skip : cont = 0 ∧ blockSize ≠ alignmentTokens ∧
          (index + 1) * blockSize % alignmentTokens ≠ 0
      · simp only [skip, ne_eq, not_false_eq_true, and_self, ↓reduceIte]
        exact ih 0 lists (fun some => absurd some (Nat.lt_irrefl 0)) empty
      · have extended := scanned_set pool blockHashes groupIds total index cont lists _ row
          (getElem?_eq_getElem inside) found scanned
        have alignedNext : alignmentTokens ∣ (index + (cont + 1)) * blockSize := by
          rcases Nat.eq_zero_or_pos cont with zero | some
          · subst zero
            simp only [true_and, not_and_or, not_not] at skip
            rcases skip with same | divides
            · exact same ▸ Nat.dvd_mul_left _ _
            · exact Nat.dvd_of_mod_eq_zero divides
          · have := aligned some
            rwa [Nat.add_assoc, Nat.add_comm 1 cont] at this
        simp only [skip, ↓reduceIte]
        split
        · rename_i enough
          refine ⟨_, rfl, ?_⟩
          refine ⟨index, by exact_mod_cast enough, alignedNext, extended.inside, ?_⟩
          refine ⟨by rw [length_map, extended.count], ?_, Nat.le_refl _, ?_⟩
          · intro blocks member
            obtain ⟨whole, inLists, rfl⟩ := List.mem_map.mp member
            rw [length_take, extended.length whole inLists]
            exact min_eq_left extended.inside
          · intro entry lower upper
            exact cachedAt_take _ _ _ _ _ _ upper (extended.cached entry lower upper)
        · exact ih (cont + 1) _ (fun _ => alignedNext) extended

theorem slidingWindowHit_good {spec : SlidingWindowSpec} (positive : 0 < spec.blockSize)
    {groupIds : List Nat} {maxLength alignmentTokens : Nat}
    (hashed : maxLength / spec.blockSize ≤ blockHashes.length) :
    ∃ lists tokens,
      slidingWindowHit blockHashes maxLength groupIds pool spec false alignmentTokens = some lists ∧
        GoodHit pool blockHashes (.slidingWindow spec) groupIds tokens lists ∧
        tokens ≤ maxLength ∧ alignmentTokens ∣ tokens := by
  let total := maxLength / spec.blockSize
  let needed : Int := cdiv ((spec.slidingWindow : Int) - 1) spec.blockSize + 0
  have fits : total * spec.blockSize ≤ maxLength := Nat.div_mul_le_self _ _
  have start : Scanned pool blockHashes groupIds total total 0
      (groupIds.map fun _ => replicate total pool.nullBlock) := by
    refine ⟨by simp, ?_, Nat.le_refl _, fun entry lower upper => by omega⟩
    intro blocks member
    obtain ⟨_, _, rfl⟩ := List.mem_map.mp member
    simp
  obtain ⟨⟨lists, cont, matched⟩, result, found⟩ := slidingWindowLoop_found pool blockHashes
    groupIds spec.blockSize alignmentTokens total needed hashed total 0 _
    (fun some => absurd some (Nat.lt_irrefl 0)) start
  have outcome : slidingWindowHit blockHashes maxLength groupIds pool spec false alignmentTokens =
      some (if matched then lists
        else lists.map (·.take (alignedLength spec.blockSize alignmentTokens cont))) := by
    simp only [slidingWindowHit, Bool.false_eq_true, ↓reduceIte, false_and]
    rw [result]
  cases matched with
  | true =>
    simp only [Found, ↓reduceIte] at found
    obtain ⟨index, enough, aligned, inside, scanned⟩ := found
    refine ⟨lists, (index + cont) * spec.blockSize, by simpa using outcome, ?_, ?_, aligned⟩
    · refine ⟨scanned.count, fun blocks member => by rw [scanned.length blocks member]; rfl, ?_⟩
      rintro entry ⟨below, window⟩
      have upper : entry < index + cont := Nat.lt_of_mul_lt_mul_right below
      refine scanned.cached entry ?_ upper
      -- the contiguous blocks cover the window, so an earlier block lies outside it
      by_contra before
      have covered : (spec.slidingWindow : Int) - 1 ≤ cont * spec.blockSize := by
        rw [← cdiv_le_iff positive]
        omega
      have early : (entry + 1) * spec.blockSize ≤ index * spec.blockSize :=
        Nat.mul_le_mul_right _ (by omega)
      rw [Nat.add_mul] at window
      omega
    · exact Nat.le_trans (Nat.mul_le_mul_right _ inside) fits
  | false =>
    simp only [Found, Bool.false_eq_true, ↓reduceIte] at found
    have short := alignedLength_le spec.blockSize alignmentTokens cont
    have inside : alignedLength spec.blockSize alignmentTokens cont ≤ total := by
      have := found.inside
      omega
    refine ⟨_, alignedLength spec.blockSize alignmentTokens cont * spec.blockSize,
      by simpa using outcome, ?_, ?_, alignedLength_dvd _ _ _⟩
    · refine ⟨by rw [length_map, found.count], ?_, ?_⟩
      · intro blocks member
        obtain ⟨whole, inLists, rfl⟩ := List.mem_map.mp member
        rw [length_take, found.length whole inLists, min_eq_left inside]
        rfl
      · rintro entry ⟨below, _⟩
        have upper : entry < alignedLength spec.blockSize alignmentTokens cont :=
          Nat.lt_of_mul_lt_mul_right below
        exact cachedAt_take _ _ _ _ _ _ upper (found.cached entry (Nat.zero_le _) (by omega))
    · exact Nat.le_trans (Nat.mul_le_mul_right _ inside) fits

theorem mambaLoop_good {spec : MambaSpec} (positive : 0 < spec.blockSize) {groupIds : List Nat}
    {alignmentTokens total : Nat} (hashed : total ≤ blockHashes.length) :
    ∃ lists tokens,
      mambaLoop blockHashes groupIds pool spec.blockSize alignmentTokens total = some lists ∧
        GoodHit pool blockHashes (.mamba spec) groupIds tokens lists ∧
        tokens ≤ total * spec.blockSize ∧ alignmentTokens ∣ tokens := by
  induction total with
  | zero =>
    refine ⟨_, 0, rfl, ⟨by simp, ?_, ?_⟩, Nat.zero_le _, Nat.dvd_zero _⟩
    · intro blocks member
      obtain ⟨_, _, rfl⟩ := List.mem_map.mp member
      simp
    · rintro index ⟨below, _⟩
      exact absurd below (Nat.not_lt_zero _)
  | succ index ih =>
    have inside : index < blockHashes.length := hashed
    have earlier : ∃ lists tokens,
        mambaLoop blockHashes groupIds pool spec.blockSize alignmentTokens index = some lists ∧
          GoodHit pool blockHashes (.mamba spec) groupIds tokens lists ∧
          tokens ≤ (index + 1) * spec.blockSize ∧ alignmentTokens ∣ tokens := by
      obtain ⟨lists, tokens, result, good, bound, aligned⟩ := ih (by omega)
      exact ⟨lists, tokens, result, good,
        Nat.le_trans bound (Nat.mul_le_mul_right _ (Nat.le_succ _)), aligned⟩
    unfold mambaLoop
    simp only [getElem?_eq_getElem inside]
    cases found : pool.getCachedBlock blockHashes[index] groupIds with
    | none => exact earlier
    | some row =>
      obtain ⟨rowLength, rowEntries⟩ := getCachedBlock_spec pool _ groupIds row found
      by_cases skip : spec.blockSize ≠ alignmentTokens ∧
          (index + 1) * spec.blockSize % alignmentTokens ≠ 0
      · simp only [skip, ne_eq, not_false_eq_true, and_self, ↓reduceIte]
        exact earlier
      · simp only [skip, ↓reduceIte]
        rw [not_and_or, not_not, not_not] at skip
        refine ⟨_, (index + 1) * spec.blockSize, rfl, ⟨by simp [rowLength], ?_, ?_⟩,
          Nat.le_refl _, ?_⟩
        · intro blocks member
          obtain ⟨_, _, rfl⟩ := List.mem_map.mp member
          simp [KVCacheSpec.blockSize]
        · rintro entry ⟨_, last⟩
          have here : entry = index := by
            have := Nat.eq_of_mul_eq_mul_right positive last
            omega
          subst here
          refine ⟨_, getElem?_eq_getElem inside, ?_⟩
          intro position groupId given
          obtain ⟨block, inRow, one⟩ := rowEntries position groupId given
          exact ⟨replicate entry pool.nullBlock ++ [block], block, by simp [inRow], by simp, one⟩
        · rcases skip with same | divides
          · exact same ▸ Nat.dvd_mul_left _ _
          · exact Nat.dvd_of_mod_eq_zero divides

/-- The specs the hybrid coordinator's search is about. -/
def Searchable : KVCacheSpec → Prop
  | .chunkedLocalAttention _ | .crossAttention _ => False
  | _ => True

/-- Every searchable type returns an aligned hit within the bound. -/
theorem findLongestCacheHit_good (searchable : Searchable spec) (positive : 0 < spec.blockSize)
    {groupIds : List Nat} {maxLength alignmentTokens : Nat}
    (hashed : maxLength / spec.blockSize ≤ blockHashes.length) :
    ∃ lists tokens,
      CacheHit.findLongestCacheHit spec blockHashes maxLength groupIds pool false alignmentTokens
          1 1 = some lists ∧
        GoodHit pool blockHashes spec groupIds tokens lists ∧
        tokens ≤ maxLength ∧ alignmentTokens ∣ tokens := by
  have full : ∃ lists tokens,
      some (fullAttentionHit blockHashes maxLength groupIds pool (spec.blockSize * (1 * 1)) false
          alignmentTokens) = some lists ∧
        GoodHit pool blockHashes spec groupIds tokens lists ∧
        tokens ≤ maxLength ∧ alignmentTokens ∣ tokens := by
    obtain ⟨tokens, good⟩ := fullAttentionHit_good pool blockHashes spec
    rw [Nat.mul_one]
    exact ⟨_, tokens, rfl, good⟩
  cases spec with
  | fullAttention spec => exact full
  | mlaAttention spec => exact full
  | sinkFullAttention spec => exact full
  | slidingWindow spec =>
    exact slidingWindowHit_good pool blockHashes positive hashed
  | mamba spec =>
    obtain ⟨lists, tokens, result, good, bound, aligned⟩ :=
      mambaLoop_good pool blockHashes positive hashed
    exact ⟨lists, tokens, result, good, Nat.le_trans bound (Nat.div_mul_le_self _ _), aligned⟩
  | chunkedLocalAttention spec => exact searchable.elim
  | crossAttention spec => exact searchable.elim

end VllmDcu.CacheHitRules

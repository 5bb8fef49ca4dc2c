import VllmDcu.CacheHitRules

/-! The sliding-window search returns the longest hit: of all aligned lengths whose last
blocks cover the window, the scan from the right stops at the greatest one. The invariant
says that no length beyond the contiguous blocks covers the window any more. -/
namespace VllmDcu.SlidingWindowHits
open Requests FreeBlockQueue BlockPool KVCacheInterface MathUtils CacheHit CacheHitRules List
variable {Digest : Type}

/-- The last `min length need` positions of a prefix are hits. -/
def Closes (hit : Nat → Prop) (need length : Nat) : Prop :=
  ∀ index, index < length → length ≤ index + need → hit index

theorem not_closes (hit : Nat → Prop) {need length index : Nat} (missed : ¬ hit index)
    (before : index < length) (near : length ≤ index + need) : ¬ Closes hit need length :=
  fun closes => missed (closes index before near)

/-- A block of the prefix is cached in all groups. -/
def CachedRow (pool : Pool Digest) (blockHashes : List (List Digest)) (groupIds : List Nat)
    (index : Nat) : Prop :=
  ∃ hash cached, blockHashes[index]? = some hash ∧ pool.getCachedBlock hash groupIds = some cached

/-- A hit whose last blocks are the cached blocks of their hashes, after null blocks. -/
structure CoveredHit (pool : Pool Digest) (blockHashes : List (List Digest)) (groupIds : List Nat)
    (need : Nat) (lists : List (List BlockId)) (length : Nat) : Prop where
  count : lists.length = groupIds.length
  lengths : ∀ blocks ∈ lists, blocks.length = length
  closes : Closes (CachedRow pool blockHashes groupIds) need length
  cached : ∀ index, index < length → length ≤ index + need →
    CachedAt pool blockHashes groupIds lists index
  earlier : ∀ index, index + need < length → ∀ blocks ∈ lists,
    blocks[index]? = some pool.nullBlock

/-- No longer aligned prefix within the bound is covered. -/
structure LongestHit (pool : Pool Digest) (blockHashes : List (List Digest)) (groupIds : List Nat)
    (blockSize alignmentTokens maxNumBlocks need : Nat) (lists : List (List BlockId))
    (length : Nat) : Prop extends CoveredHit pool blockHashes groupIds need lists length where
  within : length ≤ maxNumBlocks
  aligned : alignmentTokens ∣ length * blockSize
  longest : ∀ longer, longer ≤ maxNumBlocks → alignmentTokens ∣ longer * blockSize →
    Closes (CachedRow pool blockHashes groupIds) need longer → longer ≤ length

/-- The search before position `index`, with `cont` contiguous blocks from there on. -/
structure Search (pool : Pool Digest) (blockHashes : List (List Digest)) (groupIds : List Nat)
    (blockSize alignmentTokens total need index cont : Nat) (lists : List (List BlockId)) :
    Prop where
  scanned : Scanned pool blockHashes groupIds total index cont lists
  hits : ∀ entry, index ≤ entry → entry < index + cont → CachedRow pool blockHashes groupIds entry
  untouched : ∀ entry, entry < index → ∀ blocks ∈ lists, blocks[entry]? = some pool.nullBlock
  aligned : 0 < cont → alignmentTokens ∣ (index + cont) * blockSize
  short : cont < need
  beyond : ∀ length, index + cont < length → length ≤ total →
    alignmentTokens ∣ length * blockSize →
      ¬ Closes (CachedRow pool blockHashes groupIds) need length

/-! One step of the scan. -/

variable (pool : Pool Digest) (blockHashes : List (List Digest)) (groupIds : List Nat)
variable (blockSize alignmentTokens total need index cont : Nat) (lists : List (List BlockId))

section
variable (search : Search pool blockHashes groupIds blockSize alignmentTokens total need (index + 1) cont lists)
include search

/-- The search begins anew before `index`. -/
theorem search_restart
    (nothing : ∀ length, index < length → length ≤ index + 1 + cont →
      alignmentTokens ∣ length * blockSize →
        ¬ Closes (CachedRow pool blockHashes groupIds) need length) :
    Search pool blockHashes groupIds blockSize alignmentTokens total need index 0 lists := by
  have inside := search.scanned.inside
  have short := search.short
  constructor
  · exact ⟨search.scanned.count, search.scanned.length, by omega, fun entry lower upper => by omega⟩
  · omega
  · exact fun entry before => search.untouched entry (by omega)
  · exact fun some => absurd some (Nat.lt_irrefl 0)
  · omega
  · intro length more bound aligned
    by_cases near : length ≤ index + 1 + cont
    · exact nothing length (by omega) near aligned
    · exact search.beyond length (by omega) bound aligned

theorem search_miss (hash : List Digest) (atIndex : blockHashes[index]? = some hash)
    (missed : pool.getCachedBlock hash groupIds = none) :
    Search pool blockHashes groupIds blockSize alignmentTokens total need index 0 lists := by
  have short := search.short
  apply search_restart pool blockHashes groupIds blockSize alignmentTokens total need index cont
    lists search
  intro length more near _
  apply not_closes _ _ more (by omega)
  rintro ⟨hash', cached, atIndex', found⟩
  obtain rfl := Option.some.inj (atIndex.symm.trans atIndex')
  rw [missed] at found
  contradiction

end

theorem search_skip
    (search : Search pool blockHashes groupIds blockSize alignmentTokens total need (index + 1) 0
      lists) (unaligned : ¬ alignmentTokens ∣ (index + 1) * blockSize) :
    Search pool blockHashes groupIds blockSize alignmentTokens total need index 0 lists := by
  apply search_restart pool blockHashes groupIds blockSize alignmentTokens total need index 0 lists
    search
  intro length more near aligned
  have same : length = index + 1 := by omega
  rw [same] at aligned
  exact absurd aligned unaligned

/-- A cached block is written into the lists. -/
theorem set_untouched (row : List BlockId)
    (untouched : ∀ entry, entry < index + 1 → ∀ blocks ∈ lists,
      blocks[entry]? = some pool.nullBlock) :
    ∀ entry, entry < index → ∀ blocks ∈ lists.zipWith (fun blocks block => blocks.set index block) row,
      blocks[entry]? = some pool.nullBlock := by
  intro entry before blocks member
  obtain ⟨position, listed⟩ := getElem?_of_mem member
  rw [getElem?_zipWith] at listed
  split at listed
  · rename_i old block inLists _
    rw [← Option.some.inj listed, getElem?_set_ne (by omega)]
    exact untouched entry (by omega) old (mem_of_getElem? inLists)
  · contradiction

/-- The contiguous blocks are enough, or they begin at the first block. -/
theorem search_done (scanned : Scanned pool blockHashes groupIds total index cont lists)
    (hits : ∀ entry, index ≤ entry → entry < index + cont →
      CachedRow pool blockHashes groupIds entry)
    (untouched : ∀ entry, entry < index → ∀ blocks ∈ lists, blocks[entry]? = some pool.nullBlock)
    (aligned : 0 < cont → alignmentTokens ∣ (index + cont) * blockSize)
    (beyond : ∀ length, index + cont < length → length ≤ total →
      alignmentTokens ∣ length * blockSize →
        ¬ Closes (CachedRow pool blockHashes groupIds) need length)
    (ends : cont = need ∧ 0 < cont ∨ index = 0 ∧ cont < need) :
    LongestHit pool blockHashes groupIds blockSize alignmentTokens total need
      (lists.map (·.take (index + cont))) (index + cont) := by
  have inside := scanned.inside
  constructor
  · constructor
    · rw [length_map, scanned.count]
    · intro blocks member
      obtain ⟨whole, inLists, rfl⟩ := mem_map.mp member
      rw [length_take, scanned.length whole inLists]
      exact min_eq_left inside
    · exact fun entry before near => hits entry (by omega) before
    · intro entry before near
      exact cachedAt_take _ _ _ _ _ _ before (scanned.cached entry (by omega) before)
    · intro entry before blocks member
      obtain ⟨whole, inLists, rfl⟩ := mem_map.mp member
      rw [getElem?_take_of_lt (by omega)]
      exact untouched entry (by omega) whole inLists
  · exact inside
  · rcases Nat.eq_zero_or_pos cont with zero | some
    · have none : index + cont = 0 := by omega
      rw [none, Nat.zero_mul]
      exact Nat.dvd_zero _
    · exact aligned some
  · intro longer bound alignedLonger closes
    by_contra more
    exact beyond longer (by omega) bound alignedLonger closes

/-! The whole scan. -/

theorem alignedLength_self (length : Nat) (aligned : alignmentTokens ∣ length * blockSize) :
    alignedLength blockSize alignmentTokens length = length := by
  cases length with
  | zero => rfl
  | succ length =>
    rw [alignedLength, if_neg]
    rintro ⟨-, unaligned⟩
    exact unaligned (Nat.mod_eq_zero_of_dvd aligned)

/-- What the scan leaves, with the trimming after it. -/
def trimmed (blockSize alignmentTokens : Nat) (result : List (List BlockId) × Nat × Bool) :
    List (List BlockId) :=
  if result.2.2 then result.1
  else result.1.map (·.take (alignedLength blockSize alignmentTokens result.2.1))

theorem slidingWindowLoop_longest (hashed : total ≤ blockHashes.length) (index cont : Nat)
    (lists : List (List BlockId))
    (search : Search pool blockHashes groupIds blockSize alignmentTokens total need index cont
      lists) :
    ∃ result length, slidingWindowLoop blockHashes groupIds pool blockSize alignmentTokens need index
        cont lists = some result ∧
      LongestHit pool blockHashes groupIds blockSize alignmentTokens total need
        (trimmed blockSize alignmentTokens result) length := by
  induction index generalizing cont lists with
  | zero =>
    have done := search_done pool blockHashes groupIds blockSize alignmentTokens total need 0 cont
      lists search.scanned search.hits search.untouched search.aligned search.beyond
      (Or.inr ⟨rfl, search.short⟩)
    refine ⟨_, cont, rfl, ?_⟩
    have aligned := done.aligned
    rw [Nat.zero_add] at aligned done
    simp only [trimmed, Bool.false_eq_true, ↓reduceIte,
      alignedLength_self blockSize alignmentTokens cont aligned]
    exact done
  | succ index ih =>
    have bound := search.scanned.inside
    have inside : index < blockHashes.length := by omega
    have atIndex := getElem?_eq_getElem inside
    unfold slidingWindowLoop
    simp only [atIndex]
    cases found : pool.getCachedBlock blockHashes[index] groupIds with
    | none =>
      exact ih 0 lists (search_miss pool blockHashes groupIds blockSize alignmentTokens total need
        index cont lists search _ atIndex found)
    | some row =>
      by_cases skip : cont = 0 ∧ blockSize ≠ alignmentTokens ∧
          (index + 1) * blockSize % alignmentTokens ≠ 0
      · obtain ⟨rfl, differ, unaligned⟩ := skip
        simp only [differ, unaligned, ne_eq, not_false_eq_true, and_self, ↓reduceIte]
        exact ih 0 lists (search_skip pool blockHashes groupIds blockSize alignmentTokens total
          need index lists search fun divides =>
            unaligned (Nat.mod_eq_zero_of_dvd divides))
      · have scanned := scanned_set pool blockHashes groupIds total index cont lists _ row
          atIndex found search.scanned
        have untouched := set_untouched pool index lists row search.untouched
        have short := search.short
        have hits (entry : Nat) (lower : index ≤ entry) (upper : entry < index + (cont + 1)) :
            CachedRow pool blockHashes groupIds entry := by
          by_cases here : entry = index
          · rw [here]
            exact ⟨_, row, atIndex, found⟩
          · exact search.hits entry (by omega) (by omega)
        have sum : index + (cont + 1) = index + 1 + cont := by omega
        have aligned : alignmentTokens ∣ (index + (cont + 1)) * blockSize := by
          rw [sum]
          rcases Nat.eq_zero_or_pos cont with zero | some
          · simp only [zero, true_and, not_and_or, not_not] at skip
            rw [zero]
            rcases skip with same | divides
            · exact same ▸ Nat.dvd_mul_left _ _
            · exact Nat.dvd_of_mod_eq_zero divides
          · exact search.aligned some
        have beyond : ∀ length, index + (cont + 1) < length → length ≤ total →
            alignmentTokens ∣ length * blockSize →
              ¬ Closes (CachedRow pool blockHashes groupIds) need length := by
          rw [sum]
          exact search.beyond
        simp only [skip, ↓reduceIte]
        split
        · have done := search_done pool blockHashes groupIds blockSize alignmentTokens total need
            index (cont + 1) _ scanned hits untouched (fun _ => aligned) beyond
            (Or.inl ⟨by omega, Nat.succ_pos cont⟩)
          exact ⟨_, _, rfl, done⟩
        · exact ih (cont + 1) _
            ⟨scanned, hits, untouched, fun _ => aligned, by omega, beyond⟩

/-- The search starts with null blocks only. -/
theorem search_start (positive : 0 < need) :
    Search pool blockHashes groupIds blockSize alignmentTokens total need total 0
      (groupIds.map fun _ => List.replicate total pool.nullBlock) := by
  have null : ∀ blocks ∈ groupIds.map fun _ => replicate total pool.nullBlock,
      blocks = replicate total pool.nullBlock := by
    intro blocks member
    obtain ⟨_, _, rfl⟩ := mem_map.mp member
    rfl
  constructor
  · constructor
    · rw [length_map]
    · intro blocks member
      rw [null blocks member, length_replicate]
    · exact Nat.le_refl total
    · exact fun entry lower upper => by omega
  · exact fun entry lower upper => by omega
  · intro entry before blocks member
    rw [null blocks member, getElem?_replicate, if_pos before]
  · exact fun some => absurd some (Nat.lt_irrefl 0)
  · exact positive
  · exact fun length more bound _ => absurd bound (by omega)

/-! The search. -/

/-- The blocks that the window of the next token reaches into. -/
def windowBlocks (spec : SlidingWindowSpec) : Nat :=
  (cdiv ((spec.slidingWindow : Int) - 1) spec.blockSize).toNat

variable (spec : SlidingWindowSpec)

theorem windowBlocks_eq (window : 2 ≤ spec.slidingWindow) (positive : 0 < spec.blockSize) :
    cdiv ((spec.slidingWindow : Int) - 1) spec.blockSize = windowBlocks spec ∧
      0 < windowBlocks spec := by
  have some : 0 < cdiv ((spec.slidingWindow : Int) - 1) spec.blockSize := by
    by_contra none
    have few := (cdiv_le_iff positive).mp (Int.not_lt.mp none)
    omega
  rw [windowBlocks]
  omega

/-- The list without its last block, when one block more than the window needs was found. -/
theorem covered_dropLast (length : Nat)
    (hit : CoveredHit pool blockHashes groupIds (need + 1) lists (length + 1)) :
    CoveredHit pool blockHashes groupIds need (lists.map List.dropLast) length := by
  have same : lists.map dropLast = lists.map (·.take length) := by
    apply map_congr_left
    intro blocks member
    rw [dropLast_eq_take, hit.lengths blocks member, Nat.add_sub_cancel]
  rw [same]
  constructor
  · rw [length_map, hit.count]
  · intro blocks member
    obtain ⟨whole, inLists, rfl⟩ := mem_map.mp member
    rw [length_take, hit.lengths whole inLists]
    omega
  · exact fun index before near => hit.closes index (by omega) (by omega)
  · intro index before near
    exact cachedAt_take _ _ _ _ _ _ before (hit.cached index (by omega) (by omega))
  · intro index before blocks member
    obtain ⟨whole, inLists, rfl⟩ := mem_map.mp member
    rw [getElem?_take_of_lt (by omega)]
    exact hit.earlier index (by omega) whole inLists

/-- A hit of no blocks covers every window. -/
theorem covered_empty (more : Nat) (lists : List (List BlockId))
    (hit : CoveredHit pool blockHashes groupIds more lists 0) :
    CoveredHit pool blockHashes groupIds need lists 0 := by
  constructor
  · exact hit.count
  · exact hit.lengths
  · exact fun index before _ => absurd before (Nat.not_lt_zero index)
  · exact fun index before _ => absurd before (Nat.not_lt_zero index)
  · exact fun index before => absurd before (Nat.not_lt_zero _)

theorem slidingWindowHit_longest (window : 2 ≤ spec.slidingWindow) (positive : 0 < spec.blockSize)
    (groupIds : List Nat) (maxLength alignmentTokens : Nat)
    (hashed : maxLength / spec.blockSize ≤ blockHashes.length) :
    ∃ lists length, slidingWindowHit blockHashes maxLength groupIds pool spec false alignmentTokens =
        some lists ∧
      LongestHit pool blockHashes groupIds spec.blockSize alignmentTokens
        (maxLength / spec.blockSize) (windowBlocks spec) lists length := by
  obtain ⟨need, some⟩ := windowBlocks_eq spec window positive
  obtain ⟨⟨lists, cont, matched⟩, length, looped, hit⟩ := slidingWindowLoop_longest pool blockHashes
    groupIds spec.blockSize alignmentTokens _ (windowBlocks spec) hashed _ 0 _
    (search_start pool blockHashes groupIds spec.blockSize alignmentTokens _ _ some)
  refine ⟨_, length, ?_, hit⟩
  simp only [slidingWindowHit, need, Bool.false_eq_true, ↓reduceIte, false_and, Int.add_zero, looped,
    trimmed]

theorem slidingWindowHit_eagle (window : 2 ≤ spec.slidingWindow) (positive : 0 < spec.blockSize)
    (groupIds : List Nat) (maxLength : Nat)
    (hashed : maxLength / spec.blockSize ≤ blockHashes.length) :
    ∃ lists length, slidingWindowHit blockHashes maxLength groupIds pool spec true spec.blockSize =
        some lists ∧ length ≤ maxLength / spec.blockSize ∧
      CoveredHit pool blockHashes groupIds (windowBlocks spec) lists length := by
  obtain ⟨need, some⟩ := windowBlocks_eq spec window positive
  obtain ⟨⟨lists, cont, matched⟩, length, looped, hit⟩ := slidingWindowLoop_longest pool blockHashes
    groupIds spec.blockSize spec.blockSize _ (windowBlocks spec + 1) hashed _ 0 _
    (search_start pool blockHashes groupIds spec.blockSize spec.blockSize _ _ (Nat.succ_pos _))
  have outcome : slidingWindowHit blockHashes maxLength groupIds pool spec true spec.blockSize =
      let computed := trimmed spec.blockSize spec.blockSize (lists, cont, matched)
      if computed.head? ≠ Option.some [] then Option.some (computed.map dropLast)
      else Option.some computed := by
    rw [Nat.cast_add, Nat.cast_one] at looped
    simp only [slidingWindowHit, need, ↓reduceIte, true_and, looped, trimmed]
  rw [outcome]
  simp only
  split
  · rename_i nonempty
    cases length with
    | zero =>
      -- Without blocks the first list is empty, so there is no list at all.
      refine ⟨_, 0, rfl, Nat.zero_le _, ?_⟩
      have none : trimmed spec.blockSize spec.blockSize (lists, cont, matched) = [] := by
        by_contra more
        obtain ⟨first, rest, listed⟩ := exists_cons_of_ne_nil more
        have empty := hit.lengths first (by rw [listed]; exact mem_cons_self)
        rw [listed, eq_nil_of_length_eq_zero empty] at nonempty
        exact nonempty rfl
      rw [none] at hit ⊢
      exact covered_empty pool blockHashes groupIds _ _ _ hit.toCoveredHit
    | succ length =>
      exact ⟨_, length, rfl, Nat.le_of_succ_le hit.within,
        covered_dropLast pool blockHashes groupIds _ _ length hit.toCoveredHit⟩
  · rename_i empty
    rw [not_not] at empty
    have first := hit.lengths [] (mem_of_mem_head? empty)
    subst first
    exact ⟨_, 0, rfl, Nat.zero_le _, covered_empty pool blockHashes groupIds _ _ _ hit.toCoveredHit⟩

/-- Without eagle the hit of a sliding-window group is the longest aligned prefix that covers the
window; with eagle, what is left after the last block is dropped still covers it. -/
theorem findLongestCacheHit_slidingWindow (pool : Pool Digest) (blockHashes : List (List Digest))
    (spec : SlidingWindowSpec) (window : 2 ≤ spec.slidingWindow) (positive : 0 < spec.blockSize)
    (groupIds : List Nat) (maxLength : Nat)
    (hashed : maxLength / spec.blockSize ≤ blockHashes.length) :
    (∀ alignmentTokens, ∃ lists length,
      findLongestCacheHit (.slidingWindow spec) blockHashes maxLength groupIds pool false
          alignmentTokens 1 1 = some lists ∧
        LongestHit pool blockHashes groupIds spec.blockSize alignmentTokens
          (maxLength / spec.blockSize) (windowBlocks spec) lists length) ∧
    ∃ lists length,
      findLongestCacheHit (.slidingWindow spec) blockHashes maxLength groupIds pool true
          spec.blockSize 1 1 = some lists ∧ length ≤ maxLength / spec.blockSize ∧
        CoveredHit pool blockHashes groupIds (windowBlocks spec) lists length := by
  constructor
  · intro alignmentTokens
    exact slidingWindowHit_longest pool blockHashes spec window positive groupIds maxLength
      alignmentTokens hashed
  · exact slidingWindowHit_eagle pool blockHashes spec window positive groupIds maxLength hashed

def threeTokenWindow : SlidingWindowSpec := ⟨⟨2, 1, 8, ⟨"float16", 2⟩, none⟩, 3⟩

theorem secondCached_starts : (Pool.init 4 true 2 true : Option (Pool Nat)).isSome = true := rfl

/-- Block 3 is cached under the second hash of the request and nothing else is. -/
def secondCached : Pool Nat :=
  { (Pool.init 4 true 2 true).get secondCached_starts with
    cachedBlockHashToBlock := fun key => if key = ([2], 0) then some (.single 3) else none }

theorem secondCached_hit :
    (∀ alignmentTokens, ∃ lists length,
      findLongestCacheHit (.slidingWindow threeTokenWindow) [[1], [2], [3]] 6 [0] secondCached false
          alignmentTokens 1 1 = some lists ∧
        LongestHit secondCached [[1], [2], [3]] [0] 2 alignmentTokens 3 1 lists length) ∧
    ∃ lists length,
      findLongestCacheHit (.slidingWindow threeTokenWindow) [[1], [2], [3]] 6 [0] secondCached true
          2 1 1 = some lists ∧ length ≤ 3 ∧
        CoveredHit secondCached [[1], [2], [3]] [0] 1 lists length :=
  findLongestCacheHit_slidingWindow secondCached [[1], [2], [3]] threeTokenWindow (by decide)
    (by decide) [0] 6 (by decide)

end VllmDcu.SlidingWindowHits

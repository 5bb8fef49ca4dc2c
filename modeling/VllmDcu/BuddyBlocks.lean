import VllmDcu.Tilings
import VllmDcu.TensorMemoryPool

/-! The buddy allocator keeps its memory tiled, and its free buddies merged where the merge depth
suffices. -/
namespace VllmDcu.TensorMemoryPool
open Tilings List Dict

/-- Whether a block covers an address, as a number. -/
def hits (place : Int) (block : MemoryBlock) : Nat :=
  if covers MemoryBlock.addr MemoryBlock.size place block then 1 else 0

/-- How many free blocks cover an address. -/
def freeHits (place : Int) (freeLists : FreeLists) : Nat :=
  Dict.total (Dict.total (hits place)) freeLists

def Free (freeLists : FreeLists) (block : MemoryBlock) : Prop :=
  ∃ blocks, freeLists.get? block.size = some blocks ∧ blocks.get? block.addr = some block

/-- The sizes that have a free list. -/
def IsSize (minBlockSize exponent size : Nat) : Prop :=
  minBlockSize ≤ size ∧ ∃ k ≤ exponent, size = 2 ^ k

/-- Free lists that tile the range together with the other blocks. -/
structure Tiled (minBlockSize exponent : Nat) (base : Int) (freeLists : FreeLists)
    (others : Int → Nat) : Prop where
  sizes : ∀ size, (∃ blocks, freeLists.get? size = some blocks) ↔
    IsSize minBlockSize exponent size
  keyed : ∀ size blocks addr block, freeLists.get? size = some blocks →
    blocks.get? addr = some block → block = ⟨size, addr⟩
  aligned : ∀ block, Free freeLists block → (block.size : Int) ∣ block.addr - base
  tiles : ∀ place, freeHits place freeLists + others place =
    if base ≤ place ∧ place < base + (2 ^ exponent : Nat) then 1 else 0

/-- No free block beside its free buddy. -/
def Coalesced (base : Int) (freeLists : FreeLists) : Prop :=
  ∀ block other, Free freeLists block → Free freeLists other → other.size = block.size →
    other.addr - base ≠ buddyOf (block.addr - base) block.size

theorem hits_eq_one {place : Int} {block : MemoryBlock}
    (covered : block.addr ≤ place ∧ place < block.addr + block.size) : hits place block = 1 :=
  if_pos (covers_iff.mpr covered)

variable (place : Int)

theorem hits_halves (addr : Int) (size : Nat) :
    hits place ⟨2 * size, addr⟩ = hits place ⟨size, addr⟩ + hits place ⟨size, addr + size⟩ := by
  simp only [hits, covers_iff]
  split
  · split
    · rw [if_neg (by omega)]
    · rw [if_pos (by omega)]
  · rw [if_neg (by omega), if_neg (by omega)]

section Step
variable {minBlockSize exponent : Nat} {base : Int} {freeLists : FreeLists} {others : Int → Nat}

theorem IsSize.positive {size : Nat} (isSize : IsSize minBlockSize exponent size) : 0 < size := by
  obtain ⟨-, k, -, rfl⟩ := isSize
  exact Nat.two_pow_pos k

theorem countP_hits (blocks : List MemoryBlock) :
    blocks.countP (covers MemoryBlock.addr MemoryBlock.size place) =
      (blocks.map (hits place)).sum := by
  induction blocks with
  | nil => rfl
  | cons block rest ih =>
    rw [countP_cons, map_cons, sum_cons, ih, hits, Nat.add_comm]

theorem freeHits_blocks (freeLists : FreeLists) :
    (freeLists.values.flatMap Dict.values).countP
      (covers MemoryBlock.addr MemoryBlock.size place) = freeHits place freeLists := by
  rw [countP_flatMap]
  congr 1
  apply map_congr_left
  intro blocks _
  exact countP_hits place blocks.values

section
variable (tiled : Tiled minBlockSize exponent base freeLists others)
include tiled

theorem Tiled.mem_iff (block : MemoryBlock) :
    block ∈ freeLists.values.flatMap Dict.values ↔ Free freeLists block := by
  rw [mem_flatMap]
  constructor
  · rintro ⟨blocks, listed, member⟩
    obtain ⟨⟨size, _⟩, entry, rfl⟩ := mem_map.mp listed
    obtain ⟨⟨addr, _⟩, inner, rfl⟩ := mem_map.mp member
    have outer := (get?_eq_some_iff _).mpr entry
    have found := (get?_eq_some_iff _).mpr inner
    have shape := tiled.keyed size _ addr _ outer found
    rw [shape] at found ⊢
    exact ⟨_, outer, found⟩
  · rintro ⟨blocks, outer, found⟩
    exact ⟨blocks, mem_map_of_mem (f := Prod.snd) ((get?_eq_some_iff _).mp outer),
      mem_map_of_mem (f := Prod.snd) ((get?_eq_some_iff _).mp found)⟩

theorem Tiled.isSize (block : MemoryBlock) (listed : Free freeLists block) :
    IsSize minBlockSize exponent block.size := by
  obtain ⟨blocks, outer, -⟩ := listed
  exact (tiled.sizes block.size).mp ⟨blocks, outer⟩

theorem Tiled.hit (place : Int) (block : MemoryBlock) (listed : Free freeLists block)
    (covered : block.addr ≤ place ∧ place < block.addr + block.size) :
    0 < freeHits place freeLists := by
  rw [← freeHits_blocks, countP_pos_iff]
  exact ⟨block, (tiled.mem_iff block).mpr listed, covers_iff.mpr covered⟩

/-- A free block covers nothing that another block covers. -/
theorem Tiled.others_zero (place : Int) (block : MemoryBlock) (listed : Free freeLists block)
    (covered : block.addr ≤ place ∧ place < block.addr + block.size) : others place = 0 := by
  have hit := tiled.hit place block listed covered
  have once := tiled.tiles place
  split at once <;> omega

/-- What covers an address is in the range. -/
theorem Tiled.inside (block : MemoryBlock) (positive : 0 < block.size)
    (counted : ∀ place, block.addr ≤ place ∧ place < block.addr + block.size →
      0 < freeHits place freeLists + others place) :
    base ≤ block.addr ∧ block.addr + block.size ≤ base + (2 ^ exponent : Nat) := by
  have within (place : Int) (covered : block.addr ≤ place ∧ place < block.addr + block.size) :
      base ≤ place ∧ place < base + (2 ^ exponent : Nat) := by
    have some := counted place covered
    rw [tiled.tiles place] at some
    by_contra outside
    rw [if_neg outside] at some
    omega
  have left := within block.addr (by omega)
  have right := within (block.addr + block.size - 1) (by omega)
  omega

end

/-! One block into the free lists or out of them. -/

theorem insertFree_spec {block : MemoryBlock}
    (tiled : Tiled minBlockSize exponent base freeLists fun place => hits place block + others place)
    (isSize : IsSize minBlockSize exponent block.size)
    (aligned : (block.size : Int) ∣ block.addr - base) :
    ∃ next, insertFree freeLists block = .ok next ∧ Tiled minBlockSize exponent base next others ∧
      ∀ other, Free next other ↔ other = block ∨ Free freeLists other := by
  obtain ⟨blocks, outer⟩ := (tiled.sizes block.size).mpr isSize
  have positive := isSize.positive
  have absent : blocks.get? block.addr = none := by
    cases found : blocks.get? block.addr with
    | none => rfl
    | some other =>
      have shape := tiled.keyed block.size blocks block.addr other outer found
      rw [shape] at found
      have covered : block.addr ≤ block.addr ∧ block.addr < block.addr + block.size := by omega
      have zero := tiled.others_zero block.addr block ⟨blocks, outer, found⟩ covered
      have one := hits_eq_one covered
      omega
  have members (other : MemoryBlock) :
      Free (freeLists.set block.size (blocks.set block.addr block)) other ↔
        other = block ∨ Free freeLists other := by
    unfold Free
    by_cases sized : other.size = block.size
    · simp only [get?_set, sized, ↓reduceIte, Option.some.injEq, exists_eq_left', outer]
      by_cases placed : other.addr = block.addr
      · simp only [placed, ↓reduceIte, Option.some.injEq, absent, reduceCtorEq, or_false]
        exact eq_comm
      · have differ : other ≠ block := fun same => placed (same ▸ rfl)
        simp only [if_neg placed, differ, false_or]
    · have differ : other ≠ block := fun same => sized (same ▸ rfl)
      simp only [get?_set, if_neg sized, differ, false_or]
  refine ⟨freeLists.set block.size (blocks.set block.addr block), ?_, ?_, members⟩
  · rw [insertFree, outer]
  · constructor
    · intro size
      rw [← tiled.sizes size, get?_set]
      by_cases sized : size = block.size
      · simp [sized, outer]
      · rw [if_neg sized]
    · intro size listed addr other found inner
      rw [get?_set] at found
      by_cases sized : size = block.size
      · rw [if_pos sized] at found
        cases found
        rw [get?_set] at inner
        by_cases placed : addr = block.addr
        · rw [if_pos placed] at inner
          cases inner
          rw [sized, placed]
        · rw [if_neg placed] at inner
          exact sized ▸ tiled.keyed block.size blocks addr other outer inner
      · rw [if_neg sized] at found
        exact tiled.keyed size listed addr other found inner
    · intro other listed
      rcases (members other).mp listed with rfl | before
      · exact aligned
      · exact tiled.aligned other before
    · intro place
      rw [← tiled.tiles place]
      have outerTotal := total_set (total (hits place)) freeLists block.size
        (blocks.set block.addr block)
      have innerTotal := total_set (hits place) blocks block.addr block
      simp only [measureAt, outer, absent, Option.elim] at outerTotal innerTotal
      unfold freeHits
      omega

/-- The free lists without one of their blocks. -/
theorem removeFree_spec (tiled : Tiled minBlockSize exponent base freeLists others)
    (blocks : Dict Int MemoryBlock) (block : MemoryBlock)
    (outer : freeLists.get? block.size = some blocks)
    (found : blocks.get? block.addr = some block) :
    Tiled minBlockSize exponent base (freeLists.set block.size (blocks.erase block.addr))
        (fun place => hits place block + others place) ∧
      ∀ other, Free (freeLists.set block.size (blocks.erase block.addr)) other ↔
        other ≠ block ∧ Free freeLists other := by
  have members (other : MemoryBlock) :
      Free (freeLists.set block.size (blocks.erase block.addr)) other ↔
        other ≠ block ∧ Free freeLists other := by
    unfold Free
    by_cases sized : other.size = block.size
    · simp only [get?_set, sized, ↓reduceIte, Option.some.injEq, exists_eq_left', outer, get?_erase]
      by_cases placed : other.addr = block.addr
      · simp only [placed, ↓reduceIte, reduceCtorEq, found, Option.some.injEq, false_iff, not_and]
        exact fun differ same => differ same.symm
      · have differ : other ≠ block := fun same => placed (same ▸ rfl)
        simp only [if_neg placed, ne_eq, differ, not_false_eq_true, true_and]
    · have differ : other ≠ block := fun same => sized (same ▸ rfl)
      simp only [get?_set, if_neg sized, ne_eq, differ, not_false_eq_true, true_and]
  constructor
  · constructor
    · intro size
      rw [← tiled.sizes size, get?_set]
      by_cases sized : size = block.size
      · simp [sized, outer]
      · rw [if_neg sized]
    · intro size listed addr other present inner
      rw [get?_set] at present
      by_cases sized : size = block.size
      · rw [if_pos sized] at present
        cases present
        rw [get?_erase] at inner
        by_cases placed : addr = block.addr
        · rw [if_pos placed] at inner
          contradiction
        · rw [if_neg placed] at inner
          exact sized ▸ tiled.keyed block.size blocks addr other outer inner
      · rw [if_neg sized] at present
        exact tiled.keyed size listed addr other present inner
    · intro other listed
      exact tiled.aligned other ((members other).mp listed).2
    · intro place
      rw [← tiled.tiles place]
      have outerTotal := total_set (total (hits place)) freeLists block.size
        (blocks.erase block.addr)
      have innerTotal := total_erase (hits place) blocks block.addr
      simp only [measureAt, outer, found, Option.elim] at outerTotal innerTotal
      unfold freeHits
      omega
  · exact members

/-! Free buddies. -/

theorem Coalesced.fewer {next : FreeLists} (coalesced : Coalesced base freeLists)
    (fewer : ∀ block, Free next block → Free freeLists block) : Coalesced base next :=
  fun block other listed also => coalesced block other (fewer block listed) (fewer other also)

/-- A block whose buddy is not free may become free. -/
theorem Coalesced.insert {next : FreeLists} (coalesced : Coalesced base freeLists)
    (block : MemoryBlock) (positive : 0 < block.size)
    (aligned : ∀ other, Free next other → (other.size : Int) ∣ other.addr - base)
    (members : ∀ other, Free next other ↔ other = block ∨ Free freeLists other)
    (alone : ∀ other, Free freeLists other → other.size = block.size →
      other.addr - base ≠ buddyOf (block.addr - base) block.size) : Coalesced base next := by
  intro one other listed also sized
  rcases (members one).mp listed with rfl | before
  · rcases (members other).mp also with rfl | otherBefore
    · exact fun same => buddyOf_ne positive same.symm
    · exact alone other otherBefore sized
  · rcases (members other).mp also with rfl | otherBefore
    · -- the buddy of the buddy
      intro same
      apply alone one before sized.symm
      rw [same, sized, buddyOf_buddyOf (sized ▸ positive) (aligned one listed)]
    · exact coalesced one other before otherBefore sized

/-! The loop of `_split_block`. -/

theorem splitBlock_spec (required k : Nat) (freeLists : FreeLists) (addr : Int)
    (others : Int → Nat) (isRequired : IsSize minBlockSize exponent required)
    (enough : required ≤ 2 ^ k) (within : k ≤ exponent)
    (tiled : Tiled minBlockSize exponent base freeLists fun place =>
      hits place ⟨2 ^ k, addr⟩ + others place)
    (aligned : ((2 ^ k : Nat) : Int) ∣ addr - base) :
    ∃ next, splitBlock minBlockSize required freeLists ⟨2 ^ k, addr⟩ =
        .ok (next, ⟨required, addr⟩) ∧
      Tiled minBlockSize exponent base next
        (fun place => hits place ⟨required, addr⟩ + others place) ∧
      (Coalesced base freeLists → Coalesced base next) := by
  obtain ⟨least, r, _, rfl⟩ := isRequired
  have ordered : r ≤ k := (Nat.pow_le_pow_iff_right Nat.one_lt_two).mp enough
  induction k generalizing freeLists others with
  | zero =>
    obtain rfl : r = 0 := by omega
    refine ⟨freeLists, ?_, tiled, id⟩
    rw [splitBlock, if_neg (by simp)]
  | succ k ih =>
    by_cases same : r = k + 1
    · subst same
      refine ⟨freeLists, ?_, tiled, id⟩
      rw [splitBlock, if_neg (by simp)]
    · have less : 2 ^ r ≤ 2 ^ k := Nat.pow_le_pow_right (by omega) (by omega)
      have double : 2 ^ (k + 1) = 2 * 2 ^ k := by
        omega
      have half : 2 ^ (k + 1) / 2 = 2 ^ k := by omega
      have positive : 0 < 2 ^ k := Nat.two_pow_pos k
      rw [double] at aligned tiled
      have split : Tiled minBlockSize exponent base freeLists fun place =>
          hits place ⟨2 ^ k, addr + (2 ^ k : Nat)⟩ + (hits place ⟨2 ^ k, addr⟩ + others place) := by
        refine ⟨tiled.sizes, tiled.keyed, tiled.aligned, fun place => ?_⟩
        rw [← tiled.tiles place, hits_halves place addr (2 ^ k)]
        omega
      have halfAligned : ((2 ^ k : Nat) : Int) ∣ addr - base :=
        (Int.natCast_dvd_natCast.mpr (Nat.dvd_mul_left _ _)).trans aligned
      have upperAligned : ((2 ^ k : Nat) : Int) ∣ addr + (2 ^ k : Nat) - base := by
        rw [add_sub_right_comm]
        exact Int.dvd_add halfAligned (Int.dvd_refl _)
      obtain ⟨middle, inserted, kept, members⟩ := insertFree_spec
        split ⟨le_trans least less, k, by omega, rfl⟩ upperAligned
      obtain ⟨next, done, tiledNext, coalesces⟩ := ih middle others (by omega) kept
        halfAligned less (by omega)
      refine ⟨next, ?_, tiledNext, ?_⟩
      · rw [splitBlock, if_pos (by simp only; omega)]
        simp only [half, inserted, Except.bind]
        exact done
      · intro coalesced
        apply coalesces
        refine coalesced.insert _ positive kept.aligned members ?_
        -- the lower half is not free: the block that is being split covers it
        intro other listed sized beside
        simp only at sized beside
        rw [add_sub_right_comm, (buddyOf_upper positive aligned).2] at beside
        have zero := tiled.others_zero addr other listed (by omega)
        have one : hits addr ⟨2 * 2 ^ k, addr⟩ = 1 := hits_eq_one (by simp only; omega)
        omega

/-! The loop of `_merge_buddies`. -/

theorem buddyAddr_eq (base : Int) (block : MemoryBlock) :
    buddyAddr base block - base = buddyOf (block.addr - base) block.size := by
  unfold buddyAddr buddyOf
  split <;> omega

/-- Two blocks of one size fit only if the size is not the whole range. -/
theorem Tiled.smaller (block other : MemoryBlock)
    (tiled : Tiled minBlockSize exponent base freeLists fun place => hits place block + others place)
    (isSize : IsSize minBlockSize exponent block.size) (listed : Free freeLists other)
    (sized : other.size = block.size) : 2 * block.size ≤ 2 ^ exponent := by
  have positive := isSize.positive
  obtain ⟨-, k, within, shape⟩ := isSize
  have blockInside := tiled.inside block positive (by
    intro place covered
    simp only [hits_eq_one covered]
    omega)
  have otherInside := tiled.inside other (by omega) (by
    intro place covered
    have := tiled.hit place other listed covered
    omega)
  by_cases whole : k = exponent
  · -- both would begin where the range does
    subst whole
    have zero := tiled.others_zero other.addr other listed (by omega)
    have one : hits other.addr block = 1 := hits_eq_one (by omega)
    omega
  · have grows : 2 ^ (k + 1) ≤ 2 ^ exponent := Nat.pow_le_pow_right (by omega) (by omega)
    omega

theorem merged_block (block buddy : MemoryBlock) (positive : 0 < block.size)
    (aligned : (block.size : Int) ∣ block.addr - base) (sized : buddy.size = block.size)
    (beside : buddy.addr - base = buddyOf (block.addr - base) block.size) :
    ((block.size * 2 : Nat) : Int) ∣ min block.addr buddy.addr - base ∧
      ∀ place, hits place ⟨block.size * 2, min block.addr buddy.addr⟩ =
        hits place block + hits place buddy := by
  obtain ⟨first, firstAligned, halves⟩ := double_block aligned
  obtain ⟨size, addr⟩ := block
  obtain ⟨buddySize, other⟩ := buddy
  simp only at sized beside halves positive ⊢
  obtain rfl := sized.symm
  have parts (place : Int) : hits place ⟨2 * size, base + first⟩ =
      hits place ⟨size, base + first⟩ + hits place ⟨size, base + first + size⟩ :=
    hits_halves place (base + first) size
  rw [Nat.mul_comm size 2]
  rcases halves with ⟨low, buddyHigh⟩ | ⟨high, buddyLow⟩
  · obtain rfl : addr = base + first := by omega
    obtain rfl : other = base + first + size := by omega
    rw [min_eq_left (by omega)]
    refine ⟨?_, parts⟩
    rw [add_sub_cancel_left]
    exact firstAligned
  · obtain rfl : other = base + first := by omega
    obtain rfl : addr = base + first + size := by omega
    rw [min_eq_right (by omega)]
    refine ⟨?_, fun place => ?_⟩
    · rw [add_sub_cancel_left]
      exact firstAligned
    · rw [parts place, Nat.add_comm]

/-- The block ends up in the free lists, as part of a larger one. Each merge doubles it, so the depth
suffices for a block that is not too small. -/
theorem mergeBuddies_spec (depth : Nat) (freeLists : FreeLists) (block : MemoryBlock)
    (tiled : Tiled minBlockSize exponent base freeLists fun place => hits place block + others place)
    (isSize : IsSize minBlockSize exponent block.size)
    (aligned : (block.size : Int) ∣ block.addr - base) :
    ∃ next, mergeBuddies base depth freeLists block = .ok next ∧
      Tiled minBlockSize exponent base next others ∧
      (2 ^ exponent ≤ block.size * 2 ^ depth → Coalesced base freeLists → Coalesced base next) := by
  induction depth generalizing freeLists block with
  | zero =>
    obtain ⟨next, inserted, kept, members⟩ := insertFree_spec tiled isSize aligned
    refine ⟨next, inserted, kept, ?_⟩
    intro whole coalesced
    refine coalesced.insert block isSize.positive kept.aligned members ?_
    intro other listed sized
    have smaller := tiled.smaller block other isSize listed sized
    have positive := isSize.positive
    omega
  | succ depth ih =>
    obtain ⟨blocks, outer⟩ := (tiled.sizes block.size).mpr isSize
    have positive := isSize.positive
    rw [mergeBuddies, outer]
    cases found : blocks.get? (buddyAddr base block) with
    | none =>
      simp only [found]
      obtain ⟨next, inserted, kept, members⟩ := insertFree_spec tiled isSize aligned
      refine ⟨next, inserted, kept, ?_⟩
      intro _ coalesced
      refine coalesced.insert block positive kept.aligned members ?_
      rintro other ⟨listed, otherOuter, otherFound⟩ sized beside
      rw [sized, outer] at otherOuter
      cases otherOuter
      rw [← buddyAddr_eq] at beside
      rw [show other.addr = buddyAddr base block by omega, found] at otherFound
      contradiction
    | some buddy =>
      simp only [found]
      have shape := tiled.keyed block.size blocks _ buddy outer found
      have sized : buddy.size = block.size := by rw [shape]
      have placed : buddy.addr = buddyAddr base block := by rw [shape]
      have beside : buddy.addr - base = buddyOf (block.addr - base) block.size := by
        rw [placed, buddyAddr_eq]
      rw [← placed] at found
      rw [← sized] at outer
      have listed : Free freeLists buddy := ⟨blocks, outer, found⟩
      obtain ⟨kept, members⟩ := removeFree_spec tiled blocks buddy outer found
      have deleted : deleteFree freeLists buddy =
          .ok (freeLists.set buddy.size (blocks.erase buddy.addr)) := by
        rw [deleteFree, outer]
        simp only [Dict.contains, found, Option.isSome_some, if_true]
      obtain ⟨mergedAligned, parts⟩ := merged_block block buddy positive aligned sized beside
      have grown : IsSize minBlockSize exponent (block.size * 2) := by
        have smaller := tiled.smaller block buddy isSize listed sized
        obtain ⟨least, k, _, size⟩ := isSize
        have double : block.size * 2 = 2 ^ (k + 1) := by rw [Nat.pow_succ, size]
        refine ⟨by omega, k + 1, ?_, double⟩
        apply (Nat.pow_le_pow_iff_right Nat.one_lt_two).mp
        omega
      obtain ⟨next, done, tiledNext, coalesces⟩ := ih _ ⟨block.size * 2, min block.addr buddy.addr⟩
        ⟨kept.sizes, kept.keyed, kept.aligned, fun place => by
          rw [← kept.tiles place, parts place]
          omega⟩ grown mergedAligned
      refine ⟨next, ?_, tiledNext, ?_⟩
      · rw [deleted]
        exact done
      · intro enough coalesced
        apply coalesces
        · rw [Nat.mul_assoc, Nat.mul_comm 2]
          exact enough
        · exact coalesced.fewer fun other remains => ((members other).mp remains).2

/-! The loop of `allocate`. -/

theorem takeBlock_spec (steps k : Nat) (reach : exponent < k + steps) (least : minBlockSize ≤ 2 ^ k)
    (tiled : Tiled minBlockSize exponent base freeLists others) :
    (∃ next block, takeBlock (2 ^ exponent) freeLists (2 ^ k) = .ok (next, block) ∧
      Free freeLists block ∧ 2 ^ k ≤ block.size ∧
      Tiled minBlockSize exponent base next (fun place => hits place block + others place) ∧
      (Coalesced base freeLists → Coalesced base next)) ∨
    (takeBlock (2 ^ exponent) freeLists (2 ^ k) = .error (.valueError "Insufficient memory") ∧
      ∀ block, Free freeLists block → block.size < 2 ^ k) := by
  have beyond (k : Nat) (above : exponent < k) :
      takeBlock (2 ^ exponent) freeLists (2 ^ k) = .error (.valueError "Insufficient memory") ∧
        ∀ block, Free freeLists block → block.size < 2 ^ k := by
    have larger : 2 ^ exponent < 2 ^ k := Nat.pow_lt_pow_right (by omega) above
    constructor
    · rw [takeBlock, if_neg (by omega)]
    · intro block listed
      obtain ⟨-, j, within, size⟩ := tiled.isSize block listed
      have : 2 ^ j ≤ 2 ^ exponent := Nat.pow_le_pow_right (by omega) within
      omega
  induction steps generalizing k with
  | zero => exact Or.inr (beyond k (by omega))
  | succ steps ih =>
    by_cases above : exponent < k
    · exact Or.inr (beyond k above)
    · have inRange : 2 ^ k ≤ 2 ^ exponent := Nat.pow_le_pow_right (by omega) (by omega)
      have positive : 0 < 2 ^ k := Nat.two_pow_pos k
      obtain ⟨blocks, outer⟩ := (tiled.sizes (2 ^ k)).mpr ⟨least, k, by omega, rfl⟩
      rw [takeBlock, if_pos ⟨positive, inRange⟩, outer]
      simp only
      cases last : blocks.entries.getLast? with
      | some entry =>
        obtain ⟨addr, block⟩ := entry
        have found := (get?_eq_some_iff blocks).mpr (mem_of_getLast? last)
        have shape := tiled.keyed (2 ^ k) blocks addr block outer found
        subst shape
        obtain ⟨kept, members⟩ := removeFree_spec tiled blocks ⟨2 ^ k, addr⟩ outer found
        exact Or.inl ⟨_, _, rfl, ⟨blocks, outer, found⟩, Nat.le_refl _, kept,
          fun coalesced => coalesced.fewer fun other remains => ((members other).mp remains).2⟩
      | none =>
        rw [getLast?_eq_none_iff] at last
        rcases ih (k + 1) (by omega) (by omega) with
          ⟨next, block, taken, listed, enough, kept, coalesces⟩ | ⟨refused, small⟩
        · exact Or.inl ⟨next, block, taken, listed, by omega, kept, coalesces⟩
        · refine Or.inr ⟨refused, ?_⟩
          intro block listed
          have below := small block listed
          obtain ⟨-, j, _, size⟩ := tiled.isSize block listed
          rcases Nat.lt_trichotomy j k with less | equal | more
          · rw [size]
            exact Nat.pow_lt_pow_right (by omega) less
          · -- the list of this size is empty
            subst equal
            obtain ⟨inner, found, member⟩ := listed
            rw [size, outer] at found
            cases found
            rw [get?, last] at member
            contradiction
          · have : 2 ^ (k + 1) ≤ 2 ^ j := Nat.pow_le_pow_right (by omega) more
            omega

end Step

/-! Sizes. -/

theorem roundToPowerOfTwo_spec (size : Nat) (positive : 0 < size) :
    ∃ k, roundToPowerOfTwo size = 2 ^ k ∧ size ≤ 2 ^ k ∧ ∀ j, size ≤ 2 ^ j → k ≤ j := by
  refine ⟨bitLength (size - 1), ?_, ?_, ?_⟩
  · rw [roundToPowerOfTwo, Nat.one_shiftLeft]
  · unfold bitLength
    split
    · omega
    · have := Nat.lt_log2_self (n := size - 1)
      omega
  · intro j enough
    unfold bitLength
    split
    · exact Nat.zero_le j
    · rename_i more
      have below := Nat.log2_self_le more
      apply (Nat.pow_lt_pow_iff_right (a := 2) Nat.one_lt_two).mp
      omega

theorem initializeFreeLists_spec (minBlockSize k : Nat) (positive : 0 < minBlockSize)
    (freeLists : FreeLists) (size : Nat) :
    (IsSize minBlockSize k size →
      (initializeFreeLists minBlockSize (2 ^ k) freeLists).get? size = some .empty) ∧
    (¬ IsSize minBlockSize k size →
      (initializeFreeLists minBlockSize (2 ^ k) freeLists).get? size = freeLists.get? size) := by
  have stops (size : Nat) (freeLists : FreeLists) (below : size < minBlockSize) :
      initializeFreeLists minBlockSize size freeLists = freeLists := by
    rw [initializeFreeLists, if_neg (by omega)]
  induction k generalizing freeLists with
  | zero =>
    by_cases small : minBlockSize ≤ 1
    · rw [initializeFreeLists, if_pos (by omega), stops _ _ (by omega), get?_set]
      constructor
      · rintro ⟨-, j, within, rfl⟩
        obtain rfl : j = 0 := by omega
        exact if_pos rfl
      · intro other
        refine if_neg fun same => other ⟨?_, 0, Nat.le_refl 0, same⟩
        omega
    · rw [stops _ _ (by omega)]
      refine ⟨?_, fun _ => rfl⟩
      rintro ⟨least, j, within, rfl⟩
      obtain rfl : j = 0 := by omega
      omega
  | succ k ih =>
    have half : 2 ^ (k + 1) / 2 = 2 ^ k := by omega
    by_cases small : minBlockSize ≤ 2 ^ (k + 1)
    · rw [initializeFreeLists, if_pos ⟨by omega, small⟩, half]
      obtain ⟨listed, unlisted⟩ := ih (freeLists.set (2 ^ (k + 1)) .empty)
      by_cases before : IsSize minBlockSize k size
      · refine ⟨fun _ => listed before, fun other => absurd ?_ other⟩
        obtain ⟨least, j, within, shape⟩ := before
        exact ⟨least, j, by omega, shape⟩
      · rw [unlisted before, get?_set]
        constructor
        · rintro ⟨least, j, within, rfl⟩
          obtain rfl : j = k + 1 := by
            by_contra smaller
            exact before ⟨least, j, by omega, rfl⟩
          exact if_pos rfl
        · intro other
          exact if_neg fun same => other ⟨by omega, k + 1, Nat.le_refl _, same⟩
    · rw [stops _ _ (by omega)]
      refine ⟨?_, fun _ => rfl⟩
      rintro ⟨least, j, within, rfl⟩
      have : 2 ^ j ≤ 2 ^ (k + 1) := Nat.pow_le_pow_right (by omega) within
      omega

/-! Pools. -/

/-- What every pool keeps. -/
structure Kept (exponent : Nat) (pool : TensorMemoryPool) : Prop where
  maxSize : pool.maxBlockSize = 2 ^ exponent
  minSize : ∃ m ≤ exponent, pool.minBlockSize = 2 ^ m
  tiled : Tiled pool.minBlockSize exponent pool.baseAddress pool.freeLists
    fun place => Dict.total (hits place) pool.allocatedBlocks
  allocated : ∀ addr block, pool.allocatedBlocks.get? addr = some block →
    block.addr = addr ∧ IsSize pool.minBlockSize exponent block.size ∧
      (block.size : Int) ∣ block.addr - pool.baseAddress

theorem init_kept (maxBlockSize minBlockSize baseAddress : Int) (pool : TensorMemoryPool)
    (made : init maxBlockSize minBlockSize baseAddress = .ok pool) :
    ∃ exponent, Kept exponent pool ∧ Coalesced pool.baseAddress pool.freeLists := by
  unfold init at made
  split at made
  · contradiction
  · split at made
    · contradiction
    · obtain ⟨exponent, maxSize, maxEnough, _⟩ := roundToPowerOfTwo_spec maxBlockSize.toNat (by omega)
      obtain ⟨m, minSize, minEnough, least⟩ := roundToPowerOfTwo_spec minBlockSize.toNat (by omega)
      have within : m ≤ exponent := least exponent (by omega)
      have someMin : 0 < 2 ^ m := Nat.two_pow_pos m
      have atMost : 2 ^ m ≤ 2 ^ exponent := Nat.pow_le_pow_right (by omega) within
      simp only [maxSize, minSize] at made
      have lists := initializeFreeLists_spec (2 ^ m) exponent someMin .empty
      generalize initializeFreeLists (2 ^ m) (2 ^ exponent) .empty = freeLists at made lists
      have only (size : Nat) (blocks : Dict Int MemoryBlock)
          (found : freeLists.get? size = some blocks) :
          IsSize (2 ^ m) exponent size ∧ blocks = .empty := by
        by_cases isSize : IsSize (2 ^ m) exponent size
        · rw [(lists size).1 isSize] at found
          exact ⟨isSize, (Option.some.inj found).symm⟩
        · rw [(lists size).2 isSize] at found
          contradiction
      have nothing (block : MemoryBlock) : ¬ Free freeLists block := by
        rintro ⟨blocks, outer, found⟩
        rw [(only _ _ outer).2] at found
        contradiction
      have start : Tiled (2 ^ m) exponent baseAddress freeLists fun place =>
          hits place ⟨2 ^ exponent, baseAddress⟩ + 0 := by
        constructor
        · intro size
          constructor
          · rintro ⟨blocks, found⟩
            exact (only size blocks found).1
          · exact fun isSize => ⟨_, (lists size).1 isSize⟩
        · intro size blocks addr block outer found
          rw [(only size blocks outer).2] at found
          contradiction
        · exact fun block listed => absurd listed (nothing block)
        · intro place
          have zero : freeHits place freeLists = 0 := by
            apply total_eq_zero
            intro size
            unfold measureAt
            cases found : freeLists.get? size with
            | none => rfl
            | some blocks =>
              rw [(only size blocks found).2]
              rfl
          rw [zero, Nat.zero_add, Nat.add_zero]
          simp only [hits, covers_iff]
      obtain ⟨next, inserted, kept, members⟩ := insertFree_spec start
        ⟨atMost, exponent, Nat.le_refl _, rfl⟩ (by simp)
      rw [inserted] at made
      cases made
      refine ⟨exponent, ⟨rfl, ⟨m, within, rfl⟩, kept, ?_⟩, ?_⟩
      · intro addr block found
        contradiction
      · have before : Coalesced baseAddress freeLists := fun block _ listed =>
          absurd listed (nothing block)
        exact before.insert _ (Nat.two_pow_pos exponent) kept.aligned members
          fun other listed => absurd listed (nothing other)

section Calls
variable {exponent : Nat} {pool : TensorMemoryPool}

/-- The same configuration, and the invariants. -/
structure Follows (exponent : Nat) (pool next : TensorMemoryPool) : Prop where
  maxBlockSize : next.maxBlockSize = pool.maxBlockSize
  minBlockSize : next.minBlockSize = pool.minBlockSize
  kept : Kept exponent next
  coalesced : pool.maxBlockSize ≤ 2 ^ maxMergeDepth * pool.minBlockSize →
    Coalesced pool.baseAddress pool.freeLists → Coalesced next.baseAddress next.freeLists

section
variable (kept : Kept exponent pool)
include kept

theorem allocate_spec (size : Int) (positive : 0 < size) :
    (∃ next addr block, pool.allocate size = .ok (next, addr) ∧ Follows exponent pool next ∧
      next.allocatedBlocks.get? addr = some block ∧ size ≤ block.size ∧
      ∃ old, Free pool.freeLists old ∧ size ≤ old.size) ∨
    (∃ message, pool.allocate size = .error (.valueError message)) ∧
      ∀ block, Free pool.freeLists block → (block.size : Int) < size := by
  obtain ⟨k, required, enough, least⟩ := roundToPowerOfTwo_spec (max size.toNat pool.minBlockSize)
    (by omega)
  -- a free block that is large enough has the required size
  have small (block : MemoryBlock) (listed : Free pool.freeLists block)
      (below : block.size < 2 ^ k) : (block.size : Int) < size := by
    obtain ⟨atLeast, j, _, shape⟩ := kept.tiled.isSize block listed
    by_contra large
    have : k ≤ j := least j (by omega)
    have : 2 ^ k ≤ 2 ^ j := Nat.pow_le_pow_right (by omega) this
    omega
  unfold allocate
  rw [if_neg (by omega)]
  simp only [required]
  by_cases tooLarge : 2 ^ k > pool.maxBlockSize
  · rw [if_pos tooLarge]
    refine Or.inr ⟨⟨_, rfl⟩, fun block listed => small block listed ?_⟩
    obtain ⟨-, j, bound, shape⟩ := kept.tiled.isSize block listed
    have : 2 ^ j ≤ 2 ^ exponent := Nat.pow_le_pow_right (by omega) bound
    have := kept.maxSize
    omega
  · rw [if_neg tooLarge, kept.maxSize]
    rcases takeBlock_spec (exponent + 1) k (by omega) (by omega) kept.tiled with
      ⟨taken, block, found, listed, large, tiled, coalesces⟩ | ⟨refused, none⟩
    · left
      obtain ⟨atLeast, j, bound, shape⟩ := kept.tiled.isSize block listed
      obtain ⟨blockSize, addr⟩ := block
      simp only at shape large atLeast
      subst shape
      have isRequired : IsSize pool.minBlockSize exponent (2 ^ k) := by
        refine ⟨by omega, k, ?_, rfl⟩
        exact le_trans ((Nat.pow_le_pow_iff_right Nat.one_lt_two).mp large) bound
      have aligned := kept.tiled.aligned _ listed
      obtain ⟨next, split, tiledNext, splits⟩ := splitBlock_spec (2 ^ k) j taken addr _ isRequired
        large bound tiled aligned
      have halved : ((2 ^ k : Nat) : Int) ∣ addr - pool.baseAddress :=
        (Int.natCast_dvd_natCast.mpr (Nat.pow_dvd_pow 2
          ((Nat.pow_le_pow_iff_right Nat.one_lt_two).mp large))).trans aligned
      -- the address is new: a free block covered it
      have absent : pool.allocatedBlocks.get? addr = none := by
        cases present : pool.allocatedBlocks.get? addr with
        | none => rfl
        | some other =>
          obtain ⟨placed, isSize, -⟩ := kept.allocated addr other present
          have positiveOther := isSize.positive
          have zero := kept.tiled.others_zero addr _ listed (by simp only; omega)
          have counted := measure_le_total (hits addr) pool.allocatedBlocks addr
          rw [measureAt, present, Option.elim, hits_eq_one (by omega)] at counted
          omega
      rw [found]
      simp only [Except.bind, split, Except.map]
      refine ⟨_, addr, ⟨2 ^ k, addr⟩, rfl, ⟨kept.maxSize.symm, rfl, ⟨rfl, kept.minSize, ?_, ?_⟩, ?_⟩,
        ?_, by simp only; omega, ⟨2 ^ j, addr⟩, listed, by simp only; omega⟩
      · refine ⟨tiledNext.sizes, tiledNext.keyed, tiledNext.aligned, fun place => ?_⟩
        rw [← tiledNext.tiles place]
        have total := total_set (hits place) pool.allocatedBlocks addr ⟨2 ^ k, addr⟩
        simp only [measureAt, absent, Option.elim] at total
        simp only
        omega
      · intro other stored present
        simp only [get?_set] at present
        by_cases same : other = addr
        · rw [if_pos same] at present
          cases present
          exact ⟨same.symm, isRequired, halved⟩
        · rw [if_neg same] at present
          exact kept.allocated other stored present
      · exact fun _ coalesced => splits (coalesces coalesced)
      · simp
    · right
      rw [refused]
      exact ⟨⟨_, rfl⟩, fun block listed => small block listed (none block listed)⟩

theorem free_spec (addr : Int) :
    (∃ next, pool.free addr = .ok next ∧ Follows exponent pool next) ∧
        (∃ block, pool.allocatedBlocks.get? addr = some block) ∨
      pool.free addr = .error (.valueError "Invalid address to free") ∧
        pool.allocatedBlocks.get? addr = none := by
  unfold free
  cases found : pool.allocatedBlocks.get? addr with
  | none => exact Or.inr ⟨rfl, rfl⟩
  | some block =>
    obtain ⟨-, isSize, aligned⟩ := kept.allocated addr block found
    have apart : Tiled pool.minBlockSize exponent pool.baseAddress pool.freeLists fun place =>
        hits place block + total (hits place) (pool.allocatedBlocks.erase addr) := by
      refine ⟨kept.tiled.sizes, kept.tiled.keyed, kept.tiled.aligned, fun place => ?_⟩
      rw [← kept.tiled.tiles place]
      have total := total_erase (hits place) pool.allocatedBlocks addr
      simp only [measureAt, found, Option.elim] at total
      omega
    obtain ⟨next, merged, tiled, coalesces⟩ := mergeBuddies_spec maxMergeDepth pool.freeLists block
      apart isSize aligned
    simp only [merged, Except.map]
    refine Or.inl ⟨⟨_, rfl, rfl, rfl, ⟨kept.maxSize, kept.minSize, tiled, ?_⟩, ?_⟩, ⟨_, rfl⟩⟩
    · intro other stored present
      simp only [get?_erase] at present
      by_cases same : other = addr
      · rw [if_pos same] at present
        contradiction
      · rw [if_neg same] at present
        exact kept.allocated other stored present
    · intro enough
      apply coalesces
      rw [← kept.maxSize, Nat.mul_comm]
      exact enough.trans (Nat.mul_le_mul_left _ isSize.1)

theorem call_follows (next : Call) : Follows exponent pool (pool.call next) := by
  have same : Follows exponent pool pool := ⟨rfl, rfl, kept, fun _ => id⟩
  cases next with
  | allocate size =>
    rw [call]
    by_cases positive : 0 < size
    · rcases allocate_spec kept size positive with
        ⟨after, addr, block, allocated, follows, _⟩ | ⟨⟨message, refused⟩, _⟩
      · rw [allocated]
        exact follows
      · rw [refused]
        exact same
    · rw [allocate, if_pos (by omega)]
      exact same
  | free addr =>
    rw [call]
    rcases free_spec kept addr with ⟨⟨after, freed, follows⟩, _⟩ | ⟨refused, _⟩
    · rw [freed]
      exact follows
    · rw [refused]
      exact same

theorem run_follows (calls : List Call) : Follows exponent pool (pool.run calls) := by
  induction calls generalizing pool with
  | nil => exact ⟨rfl, rfl, kept, fun _ => id⟩
  | cons next rest ih =>
    have one := call_follows kept next
    have others := ih one.kept
    refine ⟨others.maxBlockSize.trans one.maxBlockSize,
      others.minBlockSize.trans one.minBlockSize, others.kept, ?_⟩
    intro enough coalesced
    apply others.coalesced
    · rw [one.maxBlockSize, one.minBlockSize]
      exact enough
    · exact one.coalesced enough coalesced

end

end Calls

/-- The blocks tile the pool's memory; sizes are powers of two, and offsets multiples of them. -/
structure Tidy (pool : TensorMemoryPool) : Prop where
  tiles : Tiles MemoryBlock.addr MemoryBlock.size pool.blocks pool.baseAddress pool.maxBlockSize
  sized : ∀ block ∈ pool.blocks, (∃ k, block.size = 2 ^ k) ∧ pool.minBlockSize ≤ block.size ∧
    (block.size : Int) ∣ block.addr - pool.baseAddress

/-- What the next call does. -/
structure Serves (pool : TensorMemoryPool) : Prop where
  allocates : ∀ size next addr, pool.allocate size = .ok (next, addr) →
    ∃ block, next.allocatedBlocks.get? addr = some block ∧ size ≤ block.size
  raises : ∀ size, 0 < size → ((∃ error, pool.allocate size = .error error) ↔
    ∀ block ∈ pool.freeBlocks, (block.size : Int) < size)
  frees : ∀ addr, (∃ next, pool.free addr = .ok next) ↔
    ∃ block, pool.allocatedBlocks.get? addr = some block
  noKeyError : ∀ size addr, pool.allocate size ≠ .error .keyError ∧
    pool.free addr ≠ .error .keyError

/-- No two free buddies; with nothing allocated, one free block. -/
structure Merged (pool : TensorMemoryPool) : Prop where
  alone : ∀ block ∈ pool.freeBlocks, ∀ other ∈ pool.freeBlocks, other.size = block.size →
    other.addr - pool.baseAddress ≠ buddyOf (block.addr - pool.baseAddress) block.size
  whole : pool.allocatedBlocks.entries = [] →
    pool.freeBlocks = [⟨pool.maxBlockSize, pool.baseAddress⟩]

section Kept
variable {exponent : Nat} {pool : TensorMemoryPool}

section
variable (kept : Kept exponent pool)
include kept

theorem Kept.sized (block : MemoryBlock) (member : block ∈ pool.blocks) :
    IsSize pool.minBlockSize exponent block.size ∧
      (block.size : Int) ∣ block.addr - pool.baseAddress := by
  rcases mem_append.mp member with isFree | isAllocated
  · have listed := (kept.tiled.mem_iff block).mp isFree
    exact ⟨kept.tiled.isSize block listed, kept.tiled.aligned block listed⟩
  · obtain ⟨⟨addr, _⟩, entry, rfl⟩ := mem_map.mp isAllocated
    exact (kept.allocated addr _ ((get?_eq_some_iff _).mpr entry)).2

theorem Kept.tidy : Tidy pool := by
  constructor
  · intro place
    rw [kept.maxSize, ← kept.tiled.tiles place, blocks, countP_append, freeBlocks,
      freeHits_blocks, countP_hits]
    rfl
  · intro block member
    obtain ⟨⟨least, k, _, shape⟩, aligned⟩ := kept.sized block member
    exact ⟨⟨k, shape⟩, least, aligned⟩

theorem Kept.serves : Serves pool := by
  constructor
  · intro size next addr allocated
    by_cases positive : 0 < size
    · rcases allocate_spec kept size positive with
        ⟨after, place, block, done, _, found, enough, _⟩ | ⟨⟨message, refused⟩, _⟩
      · rw [done] at allocated
        cases allocated
        exact ⟨block, found, enough⟩
      · rw [refused] at allocated
        contradiction
    · rw [allocate, if_pos (by omega)] at allocated
      contradiction
  · intro size positive
    constructor
    · rintro ⟨error, raised⟩ block member
      rcases allocate_spec kept size positive with ⟨_, _, _, done, _⟩ | ⟨_, small⟩
      · rw [done] at raised
        contradiction
      · exact small block ((kept.tiled.mem_iff block).mp member)
    · intro small
      rcases allocate_spec kept size positive with
        ⟨_, _, _, _, _, _, _, old, listed, large⟩ | ⟨⟨message, refused⟩, _⟩
      · have := small old ((kept.tiled.mem_iff old).mpr listed)
        omega
      · exact ⟨_, refused⟩
  · intro addr
    rcases free_spec kept addr with ⟨⟨next, freed, _⟩, found⟩ | ⟨refused, absent⟩
    · exact ⟨fun _ => found, fun _ => ⟨next, freed⟩⟩
    · rw [refused, absent]
      simp
  · intro size addr
    constructor
    · by_cases positive : 0 < size
      · rcases allocate_spec kept size positive with ⟨_, _, _, done, _⟩ | ⟨⟨message, refused⟩, _⟩
        · rw [done]
          simp
        · rw [refused]
          simp
      · rw [allocate, if_pos (by omega)]
        simp
    · rcases free_spec kept addr with ⟨⟨next, freed, _⟩, _⟩ | ⟨refused, _⟩
      · rw [freed]
        simp
      · rw [refused]
        simp

theorem Kept.merged (coalesced : Coalesced pool.baseAddress pool.freeLists) : Merged pool := by
  have alone (block : MemoryBlock) (member : block ∈ pool.freeBlocks) (other : MemoryBlock)
      (also : other ∈ pool.freeBlocks) := coalesced block other ((kept.tiled.mem_iff block).mp member)
    ((kept.tiled.mem_iff other).mp also)
  constructor
  · exact alone
  · intro nothing
    have all : pool.blocks = pool.freeBlocks := by
      rw [blocks, values, nothing, map_nil, append_nil]
    have tiles := kept.tidy.tiles
    rw [all, kept.maxSize] at tiles
    obtain ⟨block, shape, begins, sized⟩ := tiles.whole
      (fun block member => by
        obtain ⟨⟨_, k, within, size⟩, aligned⟩ := kept.sized block (all ▸ member)
        exact ⟨⟨k, within, size⟩, aligned⟩) alone
    rw [shape, kept.maxSize, ← begins, ← sized]

end

end Kept

/-- Whatever the calls, the memory stays tiled and a call raises when it must; if the merge depth
suffices for the smallest blocks, buddies are merged too. -/
theorem run_tidy (maxBlockSize minBlockSize baseAddress : Int) (pool : TensorMemoryPool)
    (made : init maxBlockSize minBlockSize baseAddress = .ok pool) (calls : List Call) :
    Tidy (pool.run calls) ∧ Serves (pool.run calls) ∧
      (pool.maxBlockSize ≤ 2 ^ maxMergeDepth * pool.minBlockSize → Merged (pool.run calls)) := by
  obtain ⟨exponent, kept, coalesced⟩ := init_kept maxBlockSize minBlockSize baseAddress pool made
  have follows := run_follows kept calls
  exact ⟨follows.kept.tidy, follows.kept.serves,
    fun enough => follows.kept.merged (follows.coalesced enough coalesced)⟩

theorem smallPool_tidy : ∃ pool, init 3000 512 4096 = .ok pool ∧
    Tidy (pool.run [.allocate 700, .allocate 1, .free 4096]) ∧
    Serves (pool.run [.allocate 700, .allocate 1, .free 4096]) ∧
    (pool.maxBlockSize ≤ 2 ^ maxMergeDepth * pool.minBlockSize →
      Merged (pool.run [.allocate 700, .allocate 1, .free 4096])) := by
  have succeeds : (init 3000 512 4096).toOption.isSome = true := by decide +kernel
  cases made : init 3000 512 4096 with
  | error error =>
    rw [made] at succeeds
    contradiction
  | ok pool => exact ⟨pool, rfl, run_tidy 3000 512 4096 pool made _⟩

/-- From 2 ^ 31 bytes down to 1 it takes 31 merges; and 0 bytes are refused with all memory free. -/
theorem deepPool_notMerged : ∃ pool, init (2 ^ 31) 1 4096 = .ok pool ∧
    ¬ Merged (pool.run [.allocate 1, .free 4096]) ∧
    (∃ error, pool.allocate 0 = .error error) ∧ ∃ block ∈ pool.freeBlocks, 0 ≤ block.size := by
  have computed : (init (2 ^ 31) 1 4096).toOption.map (fun pool =>
      ((pool.run [.allocate 1, .free 4096]).allocatedBlocks.entries,
        (pool.run [.allocate 1, .free 4096]).freeBlocks.length, pool.freeBlocks)) =
      some ([], 2, [⟨2 ^ 31, 4096⟩]) := by decide +kernel
  cases made : init (2 ^ 31) 1 4096 with
  | error error =>
    rw [made] at computed
    contradiction
  | ok pool =>
    rw [made] at computed
    obtain ⟨nothing, rest⟩ := Prod.mk.inj (Option.some.inj computed)
    obtain ⟨two, fresh⟩ := Prod.mk.inj rest
    refine ⟨pool, rfl, ?_, ⟨_, rfl⟩, ⟨2 ^ 31, 4096⟩, ?_, Nat.zero_le _⟩
    · intro merged
      rw [merged.whole nothing, length_singleton] at two
      contradiction
    · rw [fresh]
      exact mem_singleton_self _

end VllmDcu.TensorMemoryPool

import Mathlib.Data.List.Basic
import Mathlib.Tactic.Ring

/-! Blocks that tile a range: every place of it is in exactly one of them. With sizes that are
powers of two and aligned starts, blocks are apart or one is inside the other. -/
namespace VllmDcu.Tilings
open List

section Covering
variable {Block : Type} (start : Block → Int) (size : Block → Nat)

def covers (place : Int) (block : Block) : Bool :=
  decide (start block ≤ place ∧ place < start block + size block)

def Tiles (blocks : List Block) (first : Int) (length : Nat) : Prop :=
  ∀ place, blocks.countP (covers start size place) =
    if first ≤ place ∧ place < first + length then 1 else 0

variable {start size} {blocks : List Block} {first : Int} {length : Nat}

theorem covers_iff {place : Int} {block : Block} : covers start size place block = true ↔
    start block ≤ place ∧ place < start block + size block := decide_eq_true_iff

theorem Tiles.covered (tiles : Tiles start size blocks first length) (place : Int)
    (after : first ≤ place) (before : place < first + length) :
    ∃ block ∈ blocks, start block ≤ place ∧ place < start block + size block := by
  have one := tiles place
  rw [if_pos ⟨after, before⟩] at one
  have counted : 0 < blocks.countP (covers start size place) := by omega
  obtain ⟨block, member, covered⟩ := countP_pos_iff.mp counted
  exact ⟨block, member, covers_iff.mp covered⟩

theorem Tiles.inside (tiles : Tiles start size blocks first length) (block : Block)
    (member : block ∈ blocks) (positive : 0 < size block) :
    first ≤ start block ∧ start block + size block ≤ first + length := by
  have within (place : Int) (after : start block ≤ place)
      (before : place < start block + size block) : first ≤ place ∧ place < first + length := by
    have counted : 0 < blocks.countP (covers start size place) :=
      countP_pos_iff.mpr ⟨block, member, covers_iff.mpr ⟨after, before⟩⟩
    rw [tiles place] at counted
    by_contra outside
    rw [if_neg outside] at counted
    omega
  have left := within (start block) (by omega) (by omega)
  have right := within (start block + size block - 1) (by omega) (by omega)
  omega

/-- What is covered once is in one block only. -/
theorem same_of_once (place : Int) (once : blocks.countP (covers start size place) ≤ 1)
    (block other : Block) (member : block ∈ blocks) (inBlocks : other ∈ blocks)
    (covered : start block ≤ place ∧ place < start block + size block)
    (also : start other ≤ place ∧ place < start other + size other) : block = other := by
  by_contra differ
  obtain ⟨front, back, split⟩ := append_of_mem member
  have inRest : other ∈ front ++ back := by
    rw [split] at inBlocks
    simp only [mem_append, mem_cons] at inBlocks ⊢
    rcases inBlocks with early | rfl | late
    · exact Or.inl early
    · exact absurd rfl differ
    · exact Or.inr late
  have counted := countP_pos_iff.mpr ⟨other, inRest, covers_iff.mpr also⟩
  rw [countP_append] at counted
  rw [split, countP_append, countP_cons_of_pos (covers_iff.mpr covered)] at once
  omega

theorem Tiles.once (tiles : Tiles start size blocks first length) (place : Int) :
    blocks.countP (covers start size place) ≤ 1 := by
  rw [tiles place]
  split <;> omega

end Covering

/-! Aligned starts. -/

/-- The other half of the double block. -/
def buddyOf (offset : Int) (size : Nat) : Int :=
  if offset % (2 * size : Nat) = 0 then offset + size else offset - size

variable {offset : Int} {size : Nat}

theorem half_of_unaligned (aligned : (size : Int) ∣ offset)
    (odd : ¬ offset % (2 * size : Nat) = 0) :
    (offset - size) % (2 * size : Nat) = 0 := by
  obtain ⟨count, rfl⟩ := aligned
  have parity : count % 2 = 1 := by
    rcases Int.emod_two_eq_zero_or_one count with even | oddCount
    · obtain ⟨half, rfl⟩ := Int.dvd_of_emod_eq_zero even
      exfalso
      apply odd
      apply Int.emod_eq_zero_of_dvd
      exact ⟨half, by push_cast; ring⟩
    · exact oddCount
  apply Int.emod_eq_zero_of_dvd
  refine ⟨count / 2, ?_⟩
  have whole := Int.mul_ediv_add_emod count 2
  rw [parity] at whole
  calc (size : Int) * count - size = size * (2 * (count / 2) + 1) - size := by rw [whole]
    _ = ((2 * size : Nat) : Int) * (count / 2) := by push_cast; ring

/-- Blocks of one aligned size that meet are the same. -/
theorem aligned_meet {left right : Int} {size : Nat}
    (leftAligned : (size : Int) ∣ left) (rightAligned : (size : Int) ∣ right) (place : Int)
    (inLeft : left ≤ place ∧ place < left + size) (inRight : right ≤ place ∧ place < right + size) :
    left = right := by
  have divides := Int.dvd_sub leftAligned rightAligned
  have less : |left - right| < size := by
    rw [abs_lt]
    constructor
    · omega
    · omega
  have zero := Int.eq_zero_of_abs_lt_dvd divides less
  omega

theorem multiple_le {left right : Int} {unit : Nat} (leftAligned : (unit : Int) ∣ left)
    (rightAligned : (unit : Int) ∣ right) (less : left < right + unit) : left ≤ right := by
  obtain ⟨i, rfl⟩ := leftAligned
  obtain ⟨j, rfl⟩ := rightAligned
  have next : (unit : Int) * i < unit * (j + 1) := by
    rw [Int.mul_add, Int.mul_one]
    exact less
  have below : i < j + 1 := Int.lt_of_mul_lt_mul_left next (Int.natCast_nonneg unit)
  exact Int.mul_le_mul_of_nonneg_left (by omega) (Int.natCast_nonneg unit)

/-- The start of the double block that a block and its buddy make up. -/
theorem double_block (aligned : (size : Int) ∣ offset) :
    ∃ first : Int, ((2 * size : Nat) : Int) ∣ first ∧
      (offset = first ∧ buddyOf offset size = first + size ∨
        offset = first + size ∧ buddyOf offset size = first) := by
  unfold buddyOf
  by_cases even : offset % (2 * size : Nat) = 0
  · rw [if_pos even]
    exact ⟨offset, Int.dvd_of_emod_eq_zero even, Or.inl ⟨rfl, rfl⟩⟩
  · rw [if_neg even]
    have halved := half_of_unaligned aligned even
    exact ⟨offset - size, Int.dvd_of_emod_eq_zero halved, Or.inr ⟨by omega, rfl⟩⟩

theorem buddyOf_ne (positive : 0 < size) : buddyOf offset size ≠ offset := by
  unfold buddyOf
  split <;> omega

theorem buddyOf_upper {first : Int} {size : Nat} (positive : 0 < size)
    (aligned : ((2 * size : Nat) : Int) ∣ first) :
    buddyOf first size = first + size ∧ buddyOf (first + size) size = first := by
  have odd : ¬ (first + size) % (2 * size : Nat) = 0 := by
    intro divides
    have both := Int.dvd_sub (Int.dvd_of_emod_eq_zero divides) aligned
    have := Int.le_of_dvd (by omega) both
    omega
  unfold buddyOf
  omega

/-- Being buddies goes both ways. -/
theorem buddyOf_buddyOf (positive : 0 < size) (aligned : (size : Int) ∣ offset) :
    buddyOf (buddyOf offset size) size = offset := by
  obtain ⟨first, firstAligned, halves⟩ := double_block aligned
  obtain ⟨lower, upper⟩ := buddyOf_upper positive firstAligned
  rcases halves with ⟨low, buddy⟩ | ⟨high, buddy⟩
  · rw [buddy, upper, low]
  · rw [buddy, lower, high]

/-- An aligned block of a larger power of two that holds the buddy holds the block. -/
theorem larger_covers {larger : Int} {low high : Nat} (less : low < high)
    (aligned : ((2 ^ low : Nat) : Int) ∣ offset) (largerAligned : ((2 ^ high : Nat) : Int) ∣ larger)
    (holds : larger ≤ buddyOf offset (2 ^ low) ∧ buddyOf offset (2 ^ low) < larger + (2 ^ high :
      Nat)) :
    larger ≤ offset ∧ offset < larger + (2 ^ high : Nat) := by
  have double : 2 * 2 ^ low ∣ 2 ^ high := by
    have step : 2 * 2 ^ low = 2 ^ (low + 1) := by
      omega
    exact step ▸ Nat.pow_dvd_pow 2 less
  have unit : ((2 * 2 ^ low : Nat) : Int) ∣ ((2 ^ high : Nat) : Int) := Int.natCast_dvd_natCast.mpr double
  obtain ⟨first, firstAligned, halves⟩ := double_block aligned
  have front : larger ≤ first := by
    apply multiple_le (unit.trans largerAligned) firstAligned
    omega
  have back : first ≤ larger + (2 ^ high : Nat) - (2 * 2 ^ low : Nat) := by
    apply multiple_le firstAligned
    · exact Int.dvd_sub (Int.dvd_add (unit.trans largerAligned) unit) (Int.dvd_refl _)
    · omega
  omega

section Whole
variable {Block : Type} {start : Block → Int} {size : Block → Nat} {blocks : List Block}
variable {first : Int} {exponent : Nat}

/-- The buddy of a block that is not the whole range is in the range. -/
theorem buddy_inside {k : Nat} (smaller : k < exponent) (aligned : ((2 ^ k : Nat) : Int) ∣ offset)
    (nonneg : 0 ≤ offset) (bound : offset + (2 ^ k : Nat) ≤ (2 ^ exponent : Nat)) :
    0 ≤ buddyOf offset (2 ^ k) ∧ buddyOf offset (2 ^ k) + (2 ^ k : Nat) ≤ (2 ^ exponent : Nat) := by
  obtain ⟨front, frontAligned, halves⟩ := double_block aligned
  have unit : ((2 * 2 ^ k : Nat) : Int) ∣ ((2 ^ exponent : Nat) : Int) := by
    have step : 2 * 2 ^ k = 2 ^ (k + 1) := by
      omega
    exact Int.natCast_dvd_natCast.mpr (step ▸ Nat.pow_dvd_pow 2 smaller)
  have above : 0 ≤ front := multiple_le (Int.dvd_zero _) frontAligned (by omega)
  have below : front ≤ (2 ^ exponent : Nat) - (2 * 2 ^ k : Nat) := by
    apply multiple_le frontAligned (Int.dvd_sub unit (Int.dvd_refl _))
    omega
  omega

/-- With no buddies around, no block is smaller than the whole range. -/
theorem Tiles.none_smaller (tiles : Tiles start size blocks first (2 ^ exponent))
    (aligned : ∀ block ∈ blocks, (∃ k ≤ exponent, size block = 2 ^ k) ∧
      (size block : Int) ∣ start block - first)
    (alone : ∀ block ∈ blocks, ∀ other ∈ blocks, size other = size block →
      start other - first ≠ buddyOf (start block - first) (size block))
    (k : Nat) (smaller : k < exponent) : ∀ block ∈ blocks, size block ≠ 2 ^ k := by
  induction k using Nat.strong_induction_on with
  | h k ih =>
    intro block member sized
    have positive : 0 < 2 ^ k := Nat.two_pow_pos k
    have within := tiles.inside block member (by omega)
    have blockAligned := (aligned block member).2
    rw [sized] at blockAligned within
    obtain ⟨above, below⟩ := buddy_inside smaller blockAligned (by omega) (by omega)
    -- the buddy's first place is in some block, which is not smaller
    obtain ⟨other, inBlocks, holds⟩ := tiles.covered
      (first + buddyOf (start block - first) (2 ^ k)) (by omega) (by omega)
    obtain ⟨⟨j, _, otherSized⟩, otherAligned⟩ := aligned other inBlocks
    rw [otherSized] at otherAligned holds
    rcases Nat.lt_trichotomy j k with less | equal | more
    · exact ih j less (by omega) other inBlocks otherSized
    · subst equal
      apply alone block member other inBlocks (otherSized.trans sized.symm)
      rw [sized]
      obtain ⟨front, frontAligned, halves⟩ := double_block blockAligned
      have half : ((2 ^ j : Nat) : Int) ∣ ((2 * 2 ^ j : Nat) : Int) :=
        Int.natCast_dvd_natCast.mpr (Nat.dvd_mul_left _ _)
      have buddyAligned : ((2 ^ j : Nat) : Int) ∣ buddyOf (start block - first) (2 ^ j) := by
        rcases halves with ⟨_, same⟩ | ⟨_, same⟩
        · rw [same]
          exact Int.dvd_add (half.trans frontAligned) (Int.dvd_refl _)
        · rw [same]
          exact half.trans frontAligned
      exact aligned_meet otherAligned buddyAligned (buddyOf (start block - first) (2 ^ j))
        (by omega) (by omega)
    · have inOther := larger_covers more blockAligned otherAligned (by omega)
      have same := same_of_once (start block) (tiles.once _) block other member inBlocks
        (by omega) (by omega)
      have equal : 2 ^ j = 2 ^ k := by rw [← otherSized, ← same, sized]
      have := Nat.pow_right_injective (Nat.le_refl 2) equal
      omega

/-- Blocks without buddies: only the whole range is left. -/
theorem Tiles.whole (tiles : Tiles start size blocks first (2 ^ exponent))
    (aligned : ∀ block ∈ blocks, (∃ k ≤ exponent, size block = 2 ^ k) ∧
      (size block : Int) ∣ start block - first)
    (alone : ∀ block ∈ blocks, ∀ other ∈ blocks, size other = size block →
      start other - first ≠ buddyOf (start block - first) (size block)) :
    ∃ block, blocks = [block] ∧ start block = first ∧ size block = 2 ^ exponent := by
  have positive : 0 < 2 ^ exponent := Nat.two_pow_pos exponent
  have full (block : Block) (member : block ∈ blocks) :
      size block = 2 ^ exponent ∧ start block = first := by
    obtain ⟨⟨k, atMost, sized⟩, -⟩ := aligned block member
    have equal : k = exponent := by
      by_contra differ
      exact tiles.none_smaller aligned alone k (by omega) block member sized
    subst equal
    have within := tiles.inside block member (by omega)
    exact ⟨sized, by omega⟩
  have one : blocks.length = 1 := by
    have counted := tiles first
    rw [if_pos ⟨Int.le_refl _, by omega⟩] at counted
    rw [← counted, eq_comm, countP_eq_length]
    intro block member
    obtain ⟨sized, begins⟩ := full block member
    rw [covers_iff]
    omega
  obtain ⟨block, shape⟩ := length_eq_one_iff.mp one
  obtain ⟨sized, begins⟩ := full block (shape ▸ mem_singleton_self block)
  exact ⟨block, shape, begins, sized⟩

end Whole

end VllmDcu.Tilings

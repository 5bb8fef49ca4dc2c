import Mathlib.Data.List.Basic

/-! Borders: prefixes of a word that end at a later place in it, and the longest of them. -/
namespace VllmDcu.Borders

variable {α : Type} {word : List α} {v w stop : Nat}

/-- The first `v` letters are also the last `v` of the first `stop`, from a later start. -/
def Border (word : List α) (v stop : Nat) : Prop :=
  v < stop ∧ ∀ j < v, word[j]? = word[stop - v + j]?

theorem Border.zero (positive : 0 < stop) : Border word 0 stop := by
  constructor
  · exact positive
  · intro j impossible
    contradiction

theorem Border.succ_iff : Border word (v + 1) (stop + 1) ↔
    Border word v stop ∧ word[v]? = word[stop]? := by
  unfold Border
  constructor
  · rintro ⟨proper, same⟩
    have last := same v (by omega)
    rw [show stop + 1 - (v + 1) + v = stop by omega] at last
    refine ⟨⟨by omega, ?_⟩, last⟩
    intro j inside
    rw [same j (by omega), Nat.add_sub_add_right]
  · rintro ⟨⟨proper, same⟩, last⟩
    constructor
    · omega
    · intro j inside
      rw [Nat.add_sub_add_right]
      by_cases earlier : j < v
      · exact same j earlier
      · have equal : j = v := by omega
        subst j
        rw [last, show stop - v + v = stop by omega]

/-- A border of a border. -/
theorem Border.trans (outer : Border word v stop) (inner : Border word w v) :
    Border word w stop := by
  constructor
  · exact Nat.lt_trans inner.1 outer.1
  · intro j inside
    have shorter := inner.1
    have proper := outer.1
    rw [inner.2 j inside, outer.2 (v - w + j) (by omega)]
    congr 1
    omega

/-- The shorter of two borders is a border of the longer one. -/
theorem Border.inner (outer : Border word v stop) (shorter : Border word w stop) (less : w < v) :
    Border word w v := by
  constructor
  · exact less
  · intro j inside
    have proper := outer.1
    rw [shorter.2 j inside, outer.2 (v - w + j) (by omega)]
    congr 1
    omega

/-- The failure function: no border is longer. -/
def Longest (word : List α) (v stop : Nat) : Prop :=
  Border word v stop ∧ ∀ w, Border word w stop → w ≤ v

theorem Longest.one : Longest word 0 1 := by
  constructor
  · exact Border.zero Nat.one_pos
  · intro w border
    have proper := border.1
    omega

/-- What is left to try after a border: its own longest one. -/
theorem Longest.next (longest : Longest word w v) (outer : Border word v stop) :
    Border word w stop ∧ ∀ u, Border word u stop → u < v → u ≤ w := by
  constructor
  · exact outer.trans longest.1
  · intro u border less
    exact longest.2 u (outer.inner border less)

end VllmDcu.Borders

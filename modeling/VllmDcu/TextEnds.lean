import VllmDcu.TextSearch

/-! Where patterns end in a text, and the first of several listed patterns that ends after a place. -/
namespace VllmDcu.TextEnds
open TextSearch List Option

variable {Symbol : Type}

/-- The pattern ends at this place of the text. -/
def EndsAt (text pattern : List Symbol) (place : Nat) : Prop :=
  ∃ start, start + pattern.length = place ∧ pattern <+: text.drop start

theorem endsAt_take {text pattern : List Symbol} (nonempty : pattern ≠ []) {cut place : Nat} :
    EndsAt (text.take cut) pattern place ↔ EndsAt text pattern place ∧ place ≤ cut := by
  have positive := length_pos_of_ne_nil nonempty
  constructor
  · rintro ⟨start, rfl, found⟩
    rw [drop_take, prefix_take_iff] at found
    exact ⟨⟨start, rfl, found.1⟩, by omega⟩
  · rintro ⟨⟨start, rfl, found⟩, inside⟩
    refine ⟨start, rfl, ?_⟩
    rw [drop_take, prefix_take_iff]
    exact ⟨found, by omega⟩

theorem EndsAt.le {text pattern : List Symbol} {place : Nat} (ends : EndsAt text pattern place)
    (nonempty : pattern ≠ []) : place ≤ text.length := by
  rw [← take_length (l := text)] at ends
  exact ((endsAt_take nonempty).mp ends).2

/-- What ends inside a text ends there in every longer one, and conversely. -/
theorem endsAt_longer {text longer pattern : List Symbol} (grown : text <+: longer)
    (nonempty : pattern ≠ []) {place : Nat} :
    EndsAt text pattern place ↔ EndsAt longer pattern place ∧ place ≤ text.length := by
  have same : longer.take text.length = text := (prefix_iff_eq_take.mp grown).symm
  rw [← endsAt_take nonempty, same]

section Search
variable [DecidableEq Symbol]

theorem find_eq_some_iff (pattern text : List Symbol) (nonempty : pattern ≠ []) (index : Nat) :
    find pattern text = some index ↔
      pattern <+: text.drop index ∧ ∀ earlier < index, ¬ pattern <+: text.drop earlier := by
  induction text generalizing index with
  | nil => simp [find, nonempty]
  | cons symbol rest ih =>
    rw [find]
    by_cases here : pattern <+: symbol :: rest
    · rw [if_pos (List.isPrefixOf_iff_prefix.mpr here)]
      constructor
      · rintro ⟨⟩
        exact ⟨here, fun earlier impossible => absurd impossible (Nat.not_lt_zero _)⟩
      · rintro ⟨-, first⟩
        cases index with
        | zero => rfl
        | succ index => exact absurd here (first 0 (Nat.succ_pos index))
    · rw [if_neg (fun found => here (List.isPrefixOf_iff_prefix.mp found))]
      cases index with
      | zero =>
        constructor
        · intro found
          obtain ⟨_, -, impossible⟩ := map_eq_some_iff.mp found
          contradiction
        · exact fun found => absurd found.1 here
      | succ index =>
        rw [map_eq_some_iff]
        constructor
        · rintro ⟨found, isFound, same⟩
          cases same
          obtain ⟨at_, first⟩ := (ih index).mp isFound
          refine ⟨at_, fun earlier before => ?_⟩
          cases earlier with
          | zero => exact here
          | succ earlier => exact first earlier (by omega)
        · rintro ⟨at_, first⟩
          exact ⟨index, (ih index).mpr ⟨at_, fun earlier before =>
            first (earlier + 1) (by omega)⟩, rfl⟩

/-- The first place after `offset` where the pattern ends. -/
def firstEnd (text : List Symbol) (offset : Nat) (pattern : List Symbol) : Option Nat :=
  (find pattern (text.drop (offset + 1 - pattern.length))).map fun index =>
    offset + 1 - pattern.length + index + pattern.length

structure FirstEnd (text : List Symbol) (offset : Nat) (pattern : List Symbol) (place : Nat) :
    Prop where
  later : offset < place
  ends : EndsAt text pattern place
  first : ∀ other, offset < other → EndsAt text pattern other → place ≤ other

theorem firstEnd_eq_some_iff {text pattern : List Symbol} (nonempty : pattern ≠ [])
    {offset place : Nat} :
    firstEnd text offset pattern = some place ↔ FirstEnd text offset pattern place := by
  rw [firstEnd, map_eq_some_iff]
  simp only [find_eq_some_iff pattern _ nonempty, drop_drop]
  constructor
  · rintro ⟨index, ⟨here, first⟩, rfl⟩
    refine ⟨by omega, ⟨_, rfl, here⟩, ?_⟩
    rintro other later ⟨start, rfl, found⟩
    by_contra smaller
    apply first (start - (offset + 1 - pattern.length)) (by omega)
    rw [show offset + 1 - pattern.length + (start - (offset + 1 - pattern.length)) = start by omega]
    exact found
  · rintro ⟨later, ⟨start, rfl, found⟩, first⟩
    refine ⟨start - (offset + 1 - pattern.length), ⟨?_, ?_⟩, by omega⟩
    · rw [show offset + 1 - pattern.length + (start - (offset + 1 - pattern.length)) = start by omega]
      exact found
    · intro earlier before here
      have := first (offset + 1 - pattern.length + earlier + pattern.length) (by omega)
        ⟨_, rfl, here⟩
      omega

theorem firstEnd_eq_none_iff {text pattern : List Symbol} (nonempty : pattern ≠ []) {offset : Nat} :
    firstEnd text offset pattern = none ↔
      ∀ place, offset < place → ¬ EndsAt text pattern place := by
  have positive := length_pos_of_ne_nil nonempty
  rw [firstEnd, map_eq_none_iff, find_eq_none_iff]
  constructor
  · rintro absent place later ⟨start, rfl, found⟩
    apply absent
    have inside : text.drop start <:+: text.drop (offset + 1 - pattern.length) := by
      rw [show start = offset + 1 - pattern.length + (start - (offset + 1 - pattern.length)) by omega,
        ← drop_drop]
      exact (drop_suffix _ _).isInfix
    exact found.isInfix.trans inside
  · rintro absent ⟨before, after, split⟩
    apply absent (offset + 1 - pattern.length + before.length + pattern.length) (by omega)
    refine ⟨_, rfl, ?_⟩
    rw [← drop_drop, ← split, append_assoc, drop_left]
    exact prefix_append pattern after

/-- The first listed pattern that ends after `offset`, with its first end there. -/
def firstListed (text : List Symbol) (offset : Nat) (patterns : List (List Symbol)) :
    Option (List Symbol × Nat) :=
  patterns.findSome? fun pattern => (firstEnd text offset pattern).map fun place => (pattern, place)

theorem firstListed_eq_none_iff {text : List Symbol} {offset : Nat} {patterns : List (List Symbol)}
    (nonempty : [] ∉ patterns) :
    firstListed text offset patterns = none ↔
      ∀ pattern ∈ patterns, ∀ place, offset < place → ¬ EndsAt text pattern place := by
  rw [firstListed, findSome?_eq_none_iff]
  apply forall_congr'
  intro pattern
  apply forall_congr'
  intro listed
  rw [map_eq_none_iff]
  exact firstEnd_eq_none_iff (fun empty => nonempty (empty ▸ listed))

theorem firstListed_spec {text : List Symbol} {offset : Nat} {patterns : List (List Symbol)}
    (nonempty : [] ∉ patterns) {pattern : List Symbol} {place : Nat}
    (found : firstListed text offset patterns = some (pattern, place)) :
    pattern ∈ patterns ∧ FirstEnd text offset pattern place := by
  obtain ⟨other, listed, here⟩ := exists_of_findSome?_eq_some found
  obtain ⟨place', ends, same⟩ := map_eq_some_iff.mp here
  cases same
  exact ⟨listed, (firstEnd_eq_some_iff (fun empty => nonempty (empty ▸ listed))).mp ends⟩

/-- The choice stays the same in a narrower window that nothing else ends before. -/
theorem firstListed_narrow (text : List Symbol) {offset prev cut : Nat}
    {patterns : List (List Symbol)} (nonempty : [] ∉ patterns) {pattern : List Symbol} {place : Nat}
    (found : firstListed text offset patterns = some (pattern, place)) (inside : place ≤ cut)
    (later : offset ≤ prev)
    (clear : ∀ other ∈ patterns, ∀ p, offset < p → p ≤ prev → ¬ EndsAt text other p) :
    firstListed (text.take cut) prev patterns = some (pattern, place) := by
  obtain ⟨before, chosen, after, rfl, here, none_⟩ := findSome?_eq_some_iff.mp found
  obtain ⟨place', ends, same⟩ := map_eq_some_iff.mp here
  cases same
  have notEmpty (other : List Symbol) (listed : other ∈ before ++ pattern :: after) : other ≠ [] :=
    fun empty => nonempty (empty ▸ listed)
  have listed : pattern ∈ before ++ pattern :: after := mem_append_right _ mem_cons_self
  have chosenFirst := (firstEnd_eq_some_iff (notEmpty _ listed)).mp ends
  refine findSome?_eq_some_iff.mpr ⟨before, pattern, after, rfl, ?_, ?_⟩
  · refine map_eq_some_iff.mpr ⟨place, ?_, rfl⟩
    rw [firstEnd_eq_some_iff (notEmpty _ listed)]
    constructor
    · by_contra early
      exact clear pattern listed place chosenFirst.later (by omega) chosenFirst.ends
    · exact (endsAt_take (notEmpty _ listed)).mpr ⟨chosenFirst.ends, inside⟩
    · intro other after_ otherEnds
      exact chosenFirst.first other (by omega) ((endsAt_take (notEmpty _ listed)).mp otherEnds).1
  · intro other isBefore
    have otherListed := mem_append_left (pattern :: after) isBefore
    have absent := none_ other isBefore
    rw [map_eq_none_iff, firstEnd_eq_none_iff (notEmpty _ otherListed)] at absent ⊢
    intro p after_ otherEnds
    exact absent p (by omega) ((endsAt_take (notEmpty _ otherListed)).mp otherEnds).1

end Search

end VllmDcu.TextEnds

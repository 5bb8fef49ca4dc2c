import Mathlib.Data.List.Sort

/-! A list cut where its key changes, by the positions of the changes. In a list that
is sorted by its key each key has one segment, and the segment is everything with
that key. -/
namespace VllmDcu.Segments
open List Option

variable {Item Key : Type} [DecidableEq Key]

/-- The positions at which a key differs from the one before it. -/
def changePoints : Nat → List Key → List Nat
  | position, first :: second :: rest =>
    if second = first then changePoints (position + 1) (second :: rest)
    else (position + 1) :: changePoints (position + 1) (second :: rest)
  | _, _ => []

def boundaries (keys : List Key) : List Nat := 0 :: (changePoints 0 keys ++ [keys.length])

/-- The slices between neighbouring bounds. -/
def slices (items : List Item) (bounds : List Nat) : List (List Item) :=
  (bounds.zip bounds.tail).map fun (start, stop) => (items.drop start).take (stop - start)

def segments (key : Item → Key) (items : List Item) : List (List Item) :=
  slices items (boundaries (items.map key))

theorem changePoints_succ (position : Nat) (keys : List Key) :
    changePoints (position + 1) keys = (changePoints position keys).map (· + 1) := by
  induction keys generalizing position with
  | nil => rfl
  | cons first rest ih =>
    cases rest with
    | nil => rfl
    | cons second rest =>
      unfold changePoints
      split
      · exact ih (position + 1)
      · rw [ih (position + 1), map_cons]

theorem slices_cons (item : Item) (items : List Item) (bounds : List Nat) :
    slices (item :: items) (bounds.map (· + 1)) = slices items bounds := by
  unfold slices
  rw [← map_tail, zip_map, List.map_map]
  apply map_congr_left
  rintro ⟨start, stop⟩ member
  simp

/-- The first slice starts at the front. -/
theorem slices_front (item : Item) (items : List Item) (stop : Nat) (bounds : List Nat) :
    slices (item :: items) (0 :: (stop :: bounds).map (· + 1)) =
      (item :: items.take stop) :: slices items (stop :: bounds) := by
  rw [← slices_cons item items (stop :: bounds)]
  unfold slices
  simp

theorem boundaries_cons (first second : Key) (rest : List Key) :
    boundaries (first :: second :: rest) =
      if second = first then 0 :: (boundaries (second :: rest)).tail.map (· + 1)
      else 0 :: (boundaries (second :: rest)).map (· + 1) := by
  unfold boundaries
  rw [changePoints, changePoints_succ]
  split
  · simp
  · simp

theorem segments_new (key : Item → Key) (first second : Item) (rest : List Item)
    (different : key second ≠ key first) :
    segments key (first :: second :: rest) = [first] :: segments key (second :: rest) := by
  unfold segments
  rw [map_cons, map_cons, boundaries_cons, if_neg different, ← map_cons]
  unfold boundaries
  rw [slices_front, take_zero]

theorem segments_same (key : Item → Key) (first second : Item) (rest : List Item)
    (same : key second = key first) :
    ∃ segment others, segments key (second :: rest) = (second :: segment) :: others ∧
      segments key (first :: second :: rest) = (first :: second :: segment) :: others := by
  obtain ⟨stop, bounds, shape⟩ : ∃ stop bounds,
      boundaries ((second :: rest).map key) = 0 :: (stop + 1) :: bounds := by
    unfold boundaries
    cases inner : changePoints 0 ((second :: rest).map key) with
    | nil => exact ⟨_, _, rfl⟩
    | cons point points =>
      -- A change never stands at the front.
      have positive : ∀ (keys : List Key) (position : Nat),
          ∀ point ∈ changePoints position keys, position < point := by
        intro keys
        induction keys with
        | nil => exact fun _ _ member => absurd member not_mem_nil
        | cons one keys ih =>
          intro position point member
          cases keys with
          | nil => exact absurd member not_mem_nil
          | cons two keys =>
            unfold changePoints at member
            split at member
            · exact Nat.lt_of_succ_lt (ih (position + 1) point member)
            · rcases mem_cons.mp member with rfl | later
              · exact Nat.lt_succ_self position
              · exact Nat.lt_of_succ_lt (ih (position + 1) point later)
      have above := positive _ 0 point (inner ▸ mem_cons_self)
      obtain ⟨stop, rfl⟩ : ∃ stop, point = stop + 1 := ⟨point - 1, by omega⟩
      exact ⟨stop, points ++ [((second :: rest).map key).length], rfl⟩
  refine ⟨rest.take stop, slices (second :: rest) ((stop + 1) :: bounds), ?_, ?_⟩
  · unfold segments
    rw [shape]
    unfold slices
    simp
  · unfold segments
    rw [map_cons, map_cons, boundaries_cons, if_pos same, ← map_cons, shape,
      tail_cons, slices_front, take_succ_cons]

/-- Every key of a sorted list has one segment. -/
theorem segments_filter [PartialOrder Key] (key : Item → Key) (first : Item) (rest : List Item)
    (sorted : (first :: rest).Pairwise fun a b => key a ≤ key b) (k : Key) :
    (segments key (first :: rest)).filter (fun segment => segment.head?.map key = some k) =
      if k ∈ (first :: rest).map key then
        [(first :: rest).filter fun item => key item = k]
      else [] := by
  induction rest generalizing first with
  | nil =>
    have alone : segments key [first] = [[first]] := rfl
    rw [alone]
    by_cases here : key first = k
    · simp [here]
    · simp [here, Ne.symm here]
  | cons second rest ih =>
    have later := ih second (List.Pairwise.of_cons sorted)
    by_cases same : key second = key first
    · obtain ⟨segment, others, inner, outer⟩ := segments_same key first second rest same
      rw [inner] at later
      rw [outer]
      by_cases here : key first = k
      · have there : key second = k := same.trans here
        simp only [filter_cons, head?_cons, map_some, there, decide_true,
          ↓reduceIte, map_cons, mem_cons, true_or, here] at later ⊢
        obtain ⟨front, behind⟩ := cons.inj later
        rw [front, behind]
      · have elsewhere : key second ≠ k := fun there => here (same.symm.trans there)
        simp only [filter_cons, head?_cons, map_some, some.injEq,
          elsewhere, decide_false, Bool.false_eq_true, ↓reduceIte, map_cons, mem_cons,
          Ne.symm elsewhere, false_or, here, Ne.symm here] at later ⊢
        exact later
    · rw [segments_new key first second rest same, filter_cons]
      by_cases here : key first = k
      · -- The keys behind the change are all greater.
        have absent : k ∉ (second :: rest).map key := by
          intro member
          obtain ⟨item, inside, atItem⟩ := List.mem_map.mp member
          have above := rel_of_pairwise_cons sorted mem_cons_self
          have behind : key second ≤ key item := by
            rcases mem_cons.mp inside with rfl | deeper
            · exact le_refl _
            · exact rel_of_pairwise_cons (List.Pairwise.of_cons sorted) deeper
          rw [atItem, ← here] at behind
          exact same (le_antisymm behind above)
        have nothing : (second :: rest).filter (fun item => decide (key item = k)) = [] := by
          apply filter_eq_nil_iff.mpr
          intro item inside
          have different : key item ≠ k := fun atItem =>
            absent (List.mem_map.mpr ⟨item, inside, atItem⟩)
          simpa using different
        rw [later, if_neg absent]
        simp only [head?_cons, map_some, here, decide_true, ↓reduceIte]
        rw [map_cons, if_pos (by simp [here]), filter_cons, if_pos (by simp [here]), nothing]
      · simp only [head?_cons, map_some, some.injEq, here, decide_false,
          Bool.false_eq_true, ↓reduceIte]
        have without : (first :: second :: rest).filter (fun item => decide (key item = k)) =
            (second :: rest).filter fun item => decide (key item = k) := by
          rw [filter_cons, if_neg (by simpa using here)]
        have keys : k ∈ (first :: second :: rest).map key ↔ k ∈ (second :: rest).map key := by
          rw [map_cons, mem_cons, or_iff_right (Ne.symm here)]
        rw [without, later]
        exact if_congr keys.symm rfl rfl

end VllmDcu.Segments

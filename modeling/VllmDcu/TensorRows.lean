import Mathlib.Data.List.Range

/-! Tensor operations along one row, as a program without branches on data uses them: windows,
gathering and scattering by index, the first flag that is set, how many flags lead the row. -/
namespace VllmDcu.TensorRows
open List Option Function

variable {Value Result : Type}

/-- The windows of one size, one step apart; none when the row is shorter. -/
def unfold (row : List Value) (size : Nat) : Option (List (List Value)) :=
  if size ≤ row.length then
    some ((List.range (row.length + 1 - size)).map fun position => (row.drop position).take size)
  else none

/-- The values at the indices; none when one is out of range. -/
def gather (row : List Value) (indices : List Nat) : Option (List Value) :=
  indices.mapM fun i => row[i]?

/-- An outcome of `scatter_`: where several values are written to one position, any of them stays. -/
def Scattered (row : List Value) (writes : List (Nat × Value)) (after : List Value) : Prop :=
  after.length = row.length ∧ (∀ write ∈ writes, write.1 < row.length) ∧ ∀ i < row.length,
    (∃ write ∈ writes, write.1 = i ∧ after[i]? = some write.2) ∨
      (∀ write ∈ writes, write.1 ≠ i) ∧ after[i]? = row[i]?

/-- The outcome where the writes are made one after another. -/
def scatter (row : List Value) (writes : List (Nat × Value)) : List Value :=
  writes.foldl (fun row write => row.set write.1 write.2) row

instance [DecidableEq Value] (row : List Value) (writes : List (Nat × Value)) (after : List Value) :
    Decidable (Scattered row writes after) := by
  unfold Scattered
  infer_instance

/-- `argmax` of the flags as integers: the first one that is set, 0 without one. -/
def argmax (flags : List Bool) : Nat :=
  (flags.findIdx? id).getD 0

/-- The positions, counted from 1, that equal the running count of the set flags. -/
def leadingCount (flags : List Bool) : Nat :=
  (List.range flags.length).countP fun i => (flags.take (i + 1)).count true = i + 1

/-- What a map that returned holds. -/
theorem mapM_read {Item : Type} {items : List Item} {run : Item → Option Result}
    {results : List Result} (mapped : items.mapM run = some results) :
    results.length = items.length ∧
      ∀ (i : Nat) (item : Item), items[i]? = some item → results[i]? = run item := by
  induction items generalizing results with
  | nil =>
    cases mapped
    exact ⟨rfl, nofun⟩
  | cons first rest ih =>
    rw [mapM_cons] at mapped
    obtain ⟨result, ran, mapped⟩ := bind_eq_some_iff.mp mapped
    obtain ⟨others, mappedRest, made⟩ := bind_eq_some_iff.mp mapped
    cases made
    obtain ⟨length, read⟩ := ih mappedRest
    constructor
    · rw [length_cons, length_cons, length]
    · intro i item found
      cases i with
      | zero =>
        cases found
        exact ran.symm
      | succ i => exact read i item found

/-- One result for each item, in order. -/
theorem mapM_total {Item : Type} (items : List Item) (run : Item → Option Result)
    (each : ∀ item ∈ items, ∃ result, run item = some result) :
    ∃ results, items.mapM run = some results ∧ results.length = items.length ∧
      ∀ (i : Nat) (item : Item), items[i]? = some item → results[i]? = run item := by
  obtain ⟨results, mapped⟩ : ∃ results, items.mapM run = some results := by
    induction items with
    | nil => exact ⟨[], rfl⟩
    | cons first rest ih =>
      obtain ⟨result, ran⟩ := each first mem_cons_self
      obtain ⟨results, mapped⟩ := ih fun other member => each other (mem_cons_of_mem first member)
      refine ⟨result :: results, ?_⟩
      rw [mapM_cons, ran, mapped]
      rfl
  exact ⟨results, mapped, mapM_read mapped⟩

variable (row : List Value)

theorem gather_total (indices : List Nat) (within : ∀ i ∈ indices, i < row.length) :
    ∃ values, gather row indices = some values ∧ values.length = indices.length ∧
      ∀ (j i : Nat), indices[j]? = some i → values[j]? = row[i]? := by
  apply mapM_total
  intro i member
  have bound := within i member
  exact ⟨row[i], getElem?_eq_getElem bound⟩

/-- Indices that follow one another take a part of the row. -/
theorem gather_run (indices : Nat → Nat) (start count : Nat) (within : start + count ≤ row.length)
    (run : ∀ j < count, indices j = start + j) :
    gather row ((List.range count).map indices) = some ((row.drop start).take count) := by
  obtain ⟨values, gathered, length, read⟩ := gather_total row ((range count).map indices) (by
    intro i member
    obtain ⟨j, inside, rfl⟩ := List.mem_map.mp member
    have bound := mem_range.mp inside
    have := run j bound
    omega)
  rw [gathered]
  congr 1
  rw [length_map, length_range] at length
  apply ext_getElem?
  intro j
  rw [getElem?_take, getElem?_drop]
  by_cases inside : j < count
  · rw [if_pos inside, ← run j inside]
    apply read
    rw [getElem?_map, getElem?_range inside, map_some]
  · rw [if_neg inside, getElem?_eq_none (by omega)]

theorem unfold_spec (size : Nat) (fits : size ≤ row.length) :
    ∃ windows, unfold row size = some windows ∧ windows.length = row.length + 1 - size ∧
      ∀ position, position + size ≤ row.length →
        windows[position]? = some ((row.drop position).take size) := by
  refine ⟨_, if_pos fits, ?_, ?_⟩
  · rw [length_map, length_range]
  · intro position inside
    rw [getElem?_map, getElem?_range (by omega), map_some]

/-- A position that no write names keeps its value. -/
theorem Scattered.kept {row after : List Value} {writes : List (Nat × Value)}
    (scattered : Scattered row writes after) (i : Nat) (value : Value) (read : row[i]? = some value)
    (same : ∀ write ∈ writes, write.1 = i → write.2 = value) : after[i]? = some value := by
  obtain ⟨bound, _⟩ := List.getElem?_eq_some_iff.mp read
  rcases scattered.2.2 i bound with ⟨write, member, place, written⟩ | ⟨_, untouched⟩
  · rw [written, same write member place]
  · rw [untouched, read]

/-- A position that is written to holds the value that all writes to it have. -/
theorem Scattered.written {row after : List Value} {writes : List (Nat × Value)}
    (scattered : Scattered row writes after) (write : Nat × Value) (member : write ∈ writes)
    (same : ∀ other ∈ writes, other.1 = write.1 → other.2 = write.2) :
    after[write.1]? = some write.2 := by
  rcases scattered.2.2 write.1 (scattered.2.1 write member) with ⟨other, found, place, read⟩ | ⟨none, _⟩
  · rw [read, same other found place]
  · exact absurd rfl (none write member)

theorem scatter_scattered (writes : List (Nat × Value))
    (within : ∀ write ∈ writes, write.1 < row.length) :
    Scattered row writes (scatter row writes) := by
  unfold scatter
  induction writes using reverseRecOn with
  | nil =>
    refine ⟨rfl, nofun, ?_⟩
    intro i _
    exact Or.inr ⟨nofun, rfl⟩
  | append_singleton writes last ih =>
    have before := ih fun write member => within write (mem_append_left _ member)
    rw [foldl_append, foldl_cons, foldl_nil]
    refine ⟨?_, within, ?_⟩
    · rw [length_set]
      exact before.1
    · intro i inside
      by_cases place : last.1 = i
      · refine Or.inl ⟨last, by simp, place, ?_⟩
        rw [place, getElem?_set_self (by rw [before.1]; exact inside)]
      · rw [getElem?_set_ne place]
        rcases before.2.2 i inside with ⟨write, member, there, read⟩ | ⟨none, read⟩
        · exact Or.inl ⟨write, mem_append_left _ member, there, read⟩
        · refine Or.inr ⟨?_, read⟩
          intro write member
          rcases mem_append.mp member with earlier | final
          · exact none write earlier
          · rw [mem_singleton.mp final]
            exact place

/-! Flags. -/

variable (flags : List Bool)

theorem argmax_spec :
    (∀ i : Nat, flags[i]? ≠ some true) ∧ argmax flags = 0 ∨
      flags[argmax flags]? = some true ∧ ∀ j < argmax flags, flags[j]? ≠ some true := by
  unfold argmax
  cases found : flags.findIdx? id with
  | none =>
    refine Or.inl ⟨?_, rfl⟩
    intro i set
    have unset := findIdx?_eq_none_iff.mp found true (mem_of_getElem? set)
    cases unset
  | some first =>
    obtain ⟨bound, set, before⟩ := findIdx?_eq_some_iff_getElem.mp found
    refine Or.inr ⟨?_, ?_⟩
    · rw [getD_some, getElem?_eq_getElem bound]
      exact congrArg some set
    · intro j earlier read
      obtain ⟨inside, equal⟩ := List.getElem?_eq_some_iff.mp read
      exact before j earlier equal

/-- `argmax` of the flipped flags, flipped back: the last one that is set. -/
theorem argmax_reverse (nonempty : 0 < flags.length) :
    flags.length - 1 - argmax flags.reverse < flags.length ∧
    ((∀ i : Nat, flags[i]? ≠ some true) ∨
      flags[flags.length - 1 - argmax flags.reverse]? = some true ∧
        ∀ j, flags.length - 1 - argmax flags.reverse < j → flags[j]? ≠ some true) := by
  constructor
  · omega
  · rcases argmax_spec flags.reverse with ⟨unset, _⟩ | ⟨set, before⟩
    · refine Or.inl fun i read => ?_
      obtain ⟨bound, _⟩ := List.getElem?_eq_some_iff.mp read
      apply unset (flags.length - 1 - i)
      rw [getElem?_reverse (by omega), ← read]
      congr 1
      omega
    · obtain ⟨bound, _⟩ := List.getElem?_eq_some_iff.mp set
      rw [length_reverse] at bound
      refine Or.inr ⟨?_, ?_⟩
      · rw [← getElem?_reverse bound]
        exact set
      · intro j later read
        obtain ⟨inside, _⟩ := List.getElem?_eq_some_iff.mp read
        apply before (flags.length - 1 - j) (by omega)
        rw [getElem?_reverse (by omega), ← read]
        congr 1
        omega

/-- The count is that of the flags that are set before the first one that is not. -/
theorem leadingCount_eq : leadingCount flags = (flags.takeWhile id).length := by
  induction flags with
  | nil => rfl
  | cons flag flags ih =>
    unfold leadingCount at ih ⊢
    rw [length_cons, range_succ_eq_map, countP_cons, countP_map]
    cases flag with
    | false =>
      have none : ∀ i, (take (i + 1) (false :: flags)).count true ≠ i + 1 := by
        intro i
        have short : (flags.take i).count true ≤ (flags.take i).length := count_le_length
        rw [length_take] at short
        rw [take_succ_cons, count_cons_of_ne (by decide)]
        omega
      rw [countP_eq_zero.mpr]
      · rfl
      · intro i _
        simp only [comp_apply, none, decide_false]
        exact Bool.false_ne_true
    | true =>
      rw [takeWhile_cons_of_pos rfl, length_cons, ← ih]
      congr 1
      apply countP_congr
      intro i _
      simp only [comp_apply, take_succ_cons, count_cons_self, decide_eq_true_eq,
        Nat.succ_eq_add_one, Nat.add_right_cancel_iff]

end VllmDcu.TensorRows

import Mathlib.Data.List.Perm.Subperm
import VllmDcu.TensorRows

/-! Arrays of indices as numpy uses them: sorting by index, the inverse of a permutation, numbering the
items of equal blocks, and the indices whose flag is set. -/
namespace VllmDcu.IndexPermutations
open TensorRows
open List hiding set
open Option

variable {Value : Type}

/-- `argsort`: how equal values are ordered is left open. -/
structure Argsort (Value : Type) (le : Value → Value → Prop) where
  run : List Value → List Nat
  perm : ∀ values, (run values).Perm (List.range values.length)
  sorted : ∀ values, (run values).Pairwise fun i j =>
    ∀ a b, values[i]? = some a → values[j]? = some b → le a b

/-- Sorting the indices by the values. -/
def Argsort.ofLe (le : Value → Value → Prop) [DecidableRel le] (default : Value)
    (total : ∀ a b, le a b ∨ le b a) (trans : ∀ a b c, le a b → le b c → le a c) :
    Argsort Value le where
  run values := (List.range values.length).mergeSort fun i j =>
    decide (le (values[i]?.getD default) (values[j]?.getD default))
  perm _ := List.mergeSort_perm _ _
  sorted values := by
    apply (List.pairwise_mergeSort _ _ _).imp
    · intro i j ordered a b first second
      rw [decide_eq_true_eq, first, second] at ordered
      exact ordered
    · intro i j k first second
      rw [decide_eq_true_eq] at first second ⊢
      exact trans _ _ _ first second
    · intro i j
      rw [Bool.or_eq_true, decide_eq_true_eq, decide_eq_true_eq]
      exact total _ _

/-- `inv[perm] = arange(n)`, from memory that is not initialized; none when an index is out of range, or
a place is left as it was. -/
def inverse (perm : List Nat) : Option (List Nat) :=
  if ∀ index ∈ perm, index < perm.length then
    (scatter (List.replicate perm.length none) (perm.zipIdx.map fun entry => (entry.1, some entry.2))).mapM
      id
  else none

/-- The indices whose flag is set, in ascending order. -/
def flagged (flags : List Bool) : List Nat :=
  (List.range flags.length).filter fun i => flags[i]?.getD false

/-! Loops. -/

/-- What every step keeps holds after all of them. -/
theorem foldlM_range {State : Type} {step : State → Nat → Option State} (kept : Nat → State → Prop)
    (count : Nat) {first : State} (start : kept 0 first)
    (steps : ∀ i < count, ∀ state, kept i state → ∃ next, step state i = some next ∧ kept (i + 1) next) :
    ∃ last, (List.range count).foldlM step first = some last ∧ kept count last := by
  induction count with
  | zero => exact ⟨first, rfl, start⟩
  | succ count ih =>
    obtain ⟨state, before, holds⟩ := ih fun i inside => steps i (by omega)
    obtain ⟨next, stepped, holds'⟩ := steps count (by omega) state holds
    refine ⟨next, ?_, holds'⟩
    rw [range_succ, foldlM_append, before]
    change (foldlM step state [count]) = some next
    rw [foldlM_cons, stepped]
    rfl

/-- Values moved from some places of one list to distinct places of another, one after another. -/
theorem foldlM_moves (source : List Value) (start : Nat) (places sources : List Nat)
    (widths : places.length = sources.length) (distinct : places.Nodup) (row : List Value)
    (within : ∀ i ∈ places, start + i < row.length) (found : ∀ i ∈ sources, i < source.length) :
    ∃ final, (places.zip sources).foldlM (fun row (entry : Nat × Nat) =>
        source[entry.2]?.map fun value => row.set (start + entry.1) value) row = some final ∧
      final.length = row.length ∧ (∀ i, i ∉ places.map (start + ·) → final[i]? = row[i]?) ∧
      (places.map fun i => final[start + i]?) = sources.map fun i => source[i]? := by
  induction places generalizing sources row with
  | nil =>
    rw [eq_nil_of_length_eq_zero widths.symm]
    exact ⟨row, rfl, rfl, fun _ _ => rfl, rfl⟩
  | cons place places ih =>
    cases sources with
    | nil => contradiction
    | cons origin sources =>
      have bound := found origin mem_cons_self
      have value := getElem?_eq_getElem bound
      obtain ⟨fresh, distinct'⟩ := nodup_cons.mp distinct
      obtain ⟨final, rest, length, elsewhere, read⟩ := ih sources (by simpa using widths) distinct'
        (row.set (start + place) source[origin]) (by
          intro i member
          rw [length_set]
          exact within i (mem_cons_of_mem place member))
        fun i member => found i (mem_cons_of_mem origin member)
      rw [length_set] at length
      have here : final[start + place]? = some source[origin] := by
        rw [elsewhere, getElem?_set_self (within place mem_cons_self)]
        intro member
        obtain ⟨other, later, same⟩ := List.mem_map.mp member
        have equal : other = place := by omega
        exact fresh (equal ▸ later)
      refine ⟨final, ?_, length, ?_, ?_⟩
      · rw [zip_cons_cons, foldlM_cons, value]
        exact rest
      · intro i absent
        rw [map_cons, mem_cons, not_or] at absent
        rw [elsewhere i absent.2, getElem?_set_ne (Ne.symm absent.1)]
      · rw [map_cons, map_cons, here, value, read]

/-! Permutations of the first indices. -/

theorem perm_range {indices : List Nat} (distinct : indices.Nodup)
    (within : ∀ index ∈ indices, index < indices.length) :
    indices.Perm (List.range indices.length) := by
  apply (subperm_of_subset distinct ?_).perm_of_length_le
  · rw [length_range]
  · intro index member
    exact mem_range.mpr (within index member)

variable (row : List Value)

theorem range_map_read : (List.range row.length).map (fun i => row[i]?) = row.map some := by
  apply ext_getElem?
  intro j
  rw [getElem?_map, getElem?_map]
  by_cases inside : j < row.length
  · rw [getElem?_range inside, map_some, getElem?_eq_getElem inside]
    rfl
  · rw [getElem?_eq_none (by rw [length_range]; omega), getElem?_eq_none (by omega)]
    rfl

theorem range_countP_read (test : Value → Bool) :
    (List.range row.length).countP (fun i => row[i]?.any test) = row.countP test := by
  have counted := congrArg (countP (Option.any test)) (range_map_read row)
  rw [countP_map, countP_map] at counted
  exact counted

/-- A permutation of the indices reads each value once. -/
theorem gather_perm {indices : List Nat} (perm : indices.Perm (List.range row.length)) :
    ∃ values, gather row indices = some values ∧ values.Perm row ∧
      ∀ (j i : Nat), indices[j]? = some i → values[j]? = row[i]? := by
  obtain ⟨values, gathered, length, read⟩ := gather_total row indices fun i member =>
    mem_range.mp (perm.mem_iff.mp member)
  refine ⟨values, gathered, ?_, read⟩
  have some_values : values.map some = indices.map fun i => row[i]? := by
    apply ext_getElem?
    intro j
    rw [getElem?_map, getElem?_map]
    by_cases inside : j < indices.length
    · have found := getElem?_eq_getElem inside
      have same := read j _ found
      rw [found, map_some, ← same, getElem?_eq_getElem (by omega)]
      rfl
    · rw [getElem?_eq_none (by omega), getElem?_eq_none (by omega)]
      rfl
  have permuted : (values.map some).Perm (row.map some) := by
    rw [some_values, ← range_map_read row]
    exact perm.map _
  exact (map_perm_map_iff fun _ _ => some.inj).mp permuted

/-- The inverse is total on a permutation, and is one itself. -/
theorem inverse_spec {perm : List Nat} (isPerm : perm.Perm (List.range perm.length)) :
    ∃ inv, inverse perm = some inv ∧ inv.Perm (List.range perm.length) ∧
      ∀ j p : Nat, perm[j]? = some p ↔ inv[p]? = some j := by
  have within : ∀ index ∈ perm, index < perm.length := fun index member =>
    mem_range.mp (isPerm.mem_iff.mp member)
  have distinct : perm.Nodup := isPerm.nodup_iff.mpr nodup_range
  have writes (write : Nat × Option Nat) :
      write ∈ perm.zipIdx.map (fun entry => (entry.1, some entry.2)) ↔
        ∃ p j, perm[j]? = some p ∧ write = (p, some j) := by
    rw [List.mem_map]
    constructor
    · intro ⟨entry, member, same⟩
      exact ⟨entry.1, entry.2, mk_mem_zipIdx_iff_getElem?.mp member, same.symm⟩
    · intro ⟨p, j, found, same⟩
      exact ⟨(p, j), mk_mem_zipIdx_iff_getElem?.mpr found, same.symm⟩
  have scattered := scatter_scattered (replicate perm.length (none : Option Nat))
    (perm.zipIdx.map fun entry => (entry.1, some entry.2)) (by
      intro write member
      obtain ⟨p, j, found, rfl⟩ := (writes write).mp member
      rw [length_replicate]
      exact within p (mem_of_getElem? found))
  -- every place is written once
  have placed (j p : Nat) (found : perm[j]? = some p) :
      (scatter (replicate perm.length none)
        (perm.zipIdx.map fun entry => (entry.1, some entry.2)))[p]? = some (some j) := by
    apply scattered.written (p, some j) ((writes _).mpr ⟨p, j, found, rfl⟩)
    intro other member same
    obtain ⟨q, i, there, rfl⟩ := (writes other).mp member
    simp only at same ⊢
    subst same
    congr 1
    exact (getElem?_inj (List.getElem?_eq_some_iff.mp there).1 distinct).mp (there.trans found.symm)
  have length := scattered.1
  rw [length_replicate] at length
  have somewhere (p : Nat) (inside : p < perm.length) : ∃ j : Nat, perm[j]? = some p :=
    mem_iff_getElem?.mp (isPerm.mem_iff.mpr (mem_range.mpr inside))
  obtain ⟨inv, mapped, count, read⟩ := mapM_total (scatter (replicate perm.length none)
    (perm.zipIdx.map fun entry => (entry.1, some entry.2))) id (by
      intro item member
      obtain ⟨p, found⟩ := mem_iff_getElem?.mp member
      obtain ⟨bound, _⟩ := List.getElem?_eq_some_iff.mp found
      obtain ⟨j, there⟩ := somewhere p (by omega)
      rw [placed j p there] at found
      cases found
      exact ⟨j, rfl⟩)
  have inv_length : inv.length = perm.length := count.trans length
  have inverted (j p : Nat) : perm[j]? = some p ↔ inv[p]? = some j := by
    constructor
    · intro found
      exact read p (some j) (placed j p found)
    · intro found
      obtain ⟨bound, _⟩ := List.getElem?_eq_some_iff.mp found
      obtain ⟨i, there⟩ := somewhere p (by omega)
      have same := read p (some i) (placed i p there)
      rw [found] at same
      cases same
      exact there
  refine ⟨inv, ?_, ?_, inverted⟩
  · rw [inverse, if_pos within, mapped]
  · rw [← inv_length]
    apply perm_range
    · rw [nodup_iff_pairwise_ne, pairwise_iff_getElem]
      intro p q first second before same
      have atP := (inverted _ _).mpr (getElem?_eq_getElem first)
      have atQ := (inverted _ _).mpr (getElem?_eq_getElem second)
      rw [same, atQ] at atP
      cases atP
      exact Nat.lt_irrefl _ before
    · intro j member
      obtain ⟨p, found⟩ := mem_iff_getElem?.mp member
      obtain ⟨bound, _⟩ := List.getElem?_eq_some_iff.mp ((inverted j p).mpr found)
      omega

/-- The items of blocks of one size, the blocks numbered by a permutation, are numbered by one. -/
theorem blocks_perm (codes : List Nat) (blocks size : Nat) (perm : codes.Perm (List.range blocks)) :
    (codes.flatMap fun code => (List.range size).map (code * size + ·)).Perm
      (List.range (blocks * size)) := by
  apply (perm.flatMap_right _).trans
  clear perm
  induction blocks with
  | zero => rw [Nat.zero_mul]; exact Perm.refl []
  | succ blocks ih =>
    rw [range_succ, flatMap_append, flatMap_singleton, Nat.succ_mul, range_add]
    exact ih.append_right _

/-! Flags. -/

variable (flags : List Bool)

theorem flagged_nodup : (flagged flags).Nodup := nodup_range.filter _

theorem mem_flagged (i : Nat) : i ∈ flagged flags ↔ flags[i]? = some true := by
  unfold flagged
  rw [mem_filter, mem_range]
  constructor
  · intro ⟨inside, set⟩
    rw [getElem?_eq_getElem inside, getD_some] at set
    rw [getElem?_eq_getElem inside, set]
  · intro set
    refine ⟨(List.getElem?_eq_some_iff.mp set).1, ?_⟩
    rw [set, getD_some]

/-- Setting one more flag adds its index. -/
theorem flagged_set (i : Nat) (unset : flags[i]? = some false) :
    (flagged (flags.set i true)).Perm (i :: flagged flags) := by
  obtain ⟨inside, _⟩ := List.getElem?_eq_some_iff.mp unset
  have fresh : i ∉ flagged flags := by
    rw [mem_flagged, unset]
    exact nofun
  rw [perm_ext_iff_of_nodup (flagged_nodup _) (nodup_cons.mpr ⟨fresh, flagged_nodup _⟩)]
  intro j
  rw [mem_cons, mem_flagged, mem_flagged]
  by_cases same : j = i
  · subst same
    rw [getElem?_set_self inside]
    exact ⟨fun _ => Or.inl rfl, fun _ => rfl⟩
  · rw [getElem?_set_ne (Ne.symm same)]
    exact ⟨Or.inr, fun either => either.resolve_left same⟩

/-- Flagged and unflagged indices are all of them. -/
theorem flagged_append :
    (flagged flags ++ flagged (flags.map not)).Perm (List.range flags.length) := by
  have unflagged : flagged (flags.map not) =
      (range flags.length).filter fun i => !(flags[i]?.getD false) := by
    unfold flagged
    rw [length_map]
    apply filter_congr
    intro i member
    rw [getElem?_map, getElem?_eq_getElem (mem_range.mp member)]
    rfl
  rw [unflagged]
  exact filter_append_perm _ _

/-- A list where what passes stands in front. -/
theorem filter_append_of_pairwise {items : List Value} {test : Value → Bool}
    (front : items.Pairwise fun a b => test b = true → test a = true) :
    items = items.filter test ++ items.filter fun item => !test item := by
  induction items with
  | nil => rfl
  | cons item items ih =>
    obtain ⟨first, rest⟩ := pairwise_cons.mp front
    cases passes : test item with
    | true =>
      rw [filter_cons_of_pos passes, filter_cons_of_neg (by rw [passes]; decide),
        cons_append, ← ih rest]
    | false =>
      have none : items.filter test = [] := by
        rw [filter_eq_nil_iff]
        intro other member passed
        rw [first other member passed] at passes
        contradiction
      have own := ih rest
      rw [none, nil_append] at own
      rw [filter_cons_of_neg (by rw [passes]; decide), none, nil_append,
        filter_cons_of_pos (by rw [passes]; rfl), ← own]

/-- Sorting by the index of flagged places, and by a larger number elsewhere, puts the flagged places
first. -/
theorem argsort_flagged (argsort : Argsort Nat (· ≤ ·)) (flags : List Bool) (large : Nat)
    (beyond : flags.length ≤ large) :
    ((argsort.run (flags.mapIdx fun i flag => if flag then i else large)).take
      (flagged flags).length).Perm (flagged flags) := by
  let priorities := flags.mapIdx fun i flag => if flag then i else large
  let test (i : Nat) := flags[i]?.getD false
  have priority (i : Nat) (inside : i < flags.length) :
      priorities[i]? = some (if test i then i else large) := by
    simp only [priorities, test, getElem?_mapIdx, getElem?_eq_getElem inside, map_some, getD_some]
  have length : priorities.length = flags.length := length_mapIdx
  have perm := argsort.perm priorities
  rw [length] at perm
  have bound (i : Nat) (member : i ∈ argsort.run priorities) : i < flags.length :=
    mem_range.mp (perm.mem_iff.mp member)
  have split := filter_append_of_pairwise (by
    apply (argsort.sorted priorities).imp_of_mem
    intro i j first second ordered set
    have less := ordered _ _ (priority i (bound i first)) (priority j (bound j second))
    have inside := bound j second
    rw [if_pos set] at less
    by_contra unset
    rw [if_neg unset] at less
    omega)
  have front : ((argsort.run priorities).filter test).Perm (flagged flags) := perm.filter test
  rw [split, take_left' front.length_eq]
  exact front

end VllmDcu.IndexPermutations

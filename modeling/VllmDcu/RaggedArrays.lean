import Mathlib.Algebra.BigOperators.Group.List.Basic
import Mathlib.Algebra.Ring.Int.Defs
import Mathlib.Algebra.GroupWithZero.Nat
import VllmDcu.TensorRows

/-! Arrays with a run of entries for each row, put one after another: how numpy builds them from columns
with repetition, running sums and masks. -/
namespace VllmDcu.RaggedArrays
open TensorRows List

variable {Value Result : Type}

/-- The entries of all rows; row `i` has `count i`. -/
def ragged (rows : Nat) (count : Nat → Nat) (entry : Nat → Nat → Value) : List Value :=
  (List.range rows).flatMap fun i => (List.range (count i)).map (entry i)

/-- One value for each row. -/
def column (rows : Nat) (entry : Nat → Value) : List Value := (List.range rows).map entry

/-- A count for each row, as a tensor. -/
def counts (rows : Nat) (count : Nat → Nat) : List Int := column rows fun i => (count i : Int)

/-- Where row `i` starts. -/
def rowStart (count : Nat → Nat) (i : Nat) : Nat := (column i count).sum

/-! The operations. -/

/-- `np.repeat` -/
def repeats (values : List Value) (counts : List Nat) : List Value :=
  (values.zip counts).flatMap fun entry => List.replicate entry.2 entry.1

/-- `np.cumsum`, from a sum on. -/
def cumsumFrom (sum : Int) : List Int → List Int
  | [] => []
  | value :: rest => (sum + value) :: cumsumFrom (sum + value) rest

def cumsum (values : List Int) : List Int := cumsumFrom 0 values

/-! Columns. -/

theorem column_length (rows : Nat) (entry : Nat → Value) : (column rows entry).length = rows := by
  rw [column, length_map, length_range]

theorem column_get {rows i : Nat} {entry : Nat → Value} (inside : i < rows) :
    (column rows entry)[i]? = some (entry i) := by
  rw [column, getElem?_map, getElem?_range inside, Option.map_some]

theorem map_column {rows : Nat} {entry : Nat → Value} (f : Value → Result) :
    (column rows entry).map f = column rows fun i => f (entry i) := by
  rw [column, column, map_map]
  rfl

theorem zipWith_column {First Second : Type} {rows : Nat} {first : Nat → First} {second : Nat → Second}
    {f : First → Second → Result} :
    List.zipWith f (column rows first) (column rows second) =
      column rows fun i => f (first i) (second i) := by
  rw [column, column, column, zipWith_map, zipWith_self]

theorem zip_column {First Second : Type} (rows : Nat) (first : Nat → First) (second : Nat → Second) :
    (column rows first).zip (column rows second) = column rows fun i => (first i, second i) :=
  zipWith_column

theorem column_congr {rows : Nat} {entry entry' : Nat → Value} (same : ∀ i < rows, entry i = entry' i) :
    column rows entry = column rows entry' :=
  map_congr_left fun i member => same i (mem_range.mp member)

theorem column_succ (rows : Nat) (entry : Nat → Value) :
    column (rows + 1) entry = column rows entry ++ [entry rows] := by
  rw [column, column, range_succ, map_append]
  rfl

/-! Ragged arrays. -/

section Ragged
variable (rows : Nat) (count : Nat → Nat)

theorem ragged_succ (entry : Nat → Nat → Value) :
    ragged (rows + 1) count entry =
      ragged rows count entry ++ (List.range (count rows)).map (entry rows) := by
  rw [ragged, ragged, range_succ, flatMap_append, flatMap_singleton]

theorem ragged_length (entry : Nat → Nat → Value) :
    (ragged rows count entry).length = rowStart count rows := by
  rw [ragged, length_flatMap, rowStart, column]
  congr 1
  apply map_congr_left
  intro i _
  rw [length_map, length_range]

theorem ragged_congr {entry entry' : Nat → Nat → Value}
    (same : ∀ i < rows, ∀ j < count i, entry i j = entry' i j) :
    ragged rows count entry = ragged rows count entry' := by
  unfold ragged
  apply flatMap_congr
  intro i member
  exact map_congr_left fun j inside => same i (mem_range.mp member) j (mem_range.mp inside)

theorem map_ragged (entry : Nat → Nat → Value) (f : Value → Result) :
    (ragged rows count entry).map f = ragged rows count fun i j => f (entry i j) := by
  unfold ragged
  rw [map_flatMap]
  apply flatMap_congr
  intro i _
  exact map_column f

/-- The entries by their rows and places. -/
theorem ragged_pairs (entry : Nat → Nat → Value) :
    ragged rows count entry = (ragged rows count Prod.mk).map fun place => entry place.1 place.2 :=
  (map_ragged rows count Prod.mk fun place => entry place.1 place.2).symm

theorem zipWith_ragged {First Second : Type} {first : Nat → Nat → First} {second : Nat → Nat → Second}
    {f : First → Second → Result} :
    List.zipWith f (ragged rows count first) (ragged rows count second) =
      ragged rows count fun i j => f (first i j) (second i j) := by
  rw [ragged_pairs _ _ first, ragged_pairs _ _ second, zipWith_map, zipWith_self]
  exact map_ragged rows count Prod.mk _

theorem zip_ragged {First Second : Type} (first : Nat → Nat → First) (second : Nat → Nat → Second) :
    (ragged rows count first).zip (ragged rows count second) =
      ragged rows count fun i j => (first i j, second i j) :=
  zipWith_ragged rows count

/-- Where a row starts, the rows before it are over. -/
theorem start_succ (i : Nat) : rowStart count (i + 1) = rowStart count i + count i := by
  rw [rowStart, column_succ, sum_append, sum_singleton, rowStart]

theorem start_le {count' : Nat → Nat} (fewer : ∀ i < rows, count i ≤ count' i) :
    rowStart count rows ≤ rowStart count' rows := by
  induction rows with
  | zero => exact le_rfl
  | succ rows ih =>
    have earlier := ih fun i inside => fewer i (by omega)
    have last := fewer rows (Nat.lt_succ_self rows)
    rw [start_succ, start_succ]
    omega

variable {rows count}

theorem ragged_get (entry : Nat → Nat → Value) {i j : Nat} (row : i < rows) (inside : j < count i) :
    (ragged rows count entry)[rowStart count i + j]? = some (entry i j) := by
  induction rows with
  | zero => contradiction
  | succ rows ih =>
    rw [ragged_succ]
    by_cases last : i = rows
    · subst last
      rw [getElem?_append_right (by rw [ragged_length]; omega), ragged_length,
        Nat.add_sub_cancel_left, getElem?_map, getElem?_range inside, Option.map_some]
    · have found := ih (by omega)
      rw [getElem?_append_left (List.getElem?_eq_some_iff.mp found).1, found]

/-- The places of all entries are in range and different. -/
theorem place_lt {i j : Nat} (row : i < rows) (inside : j < count i) :
    rowStart count i + j < rowStart count rows := by
  have found := ragged_get Prod.mk row inside
  rw [← ragged_length rows count Prod.mk]
  exact (List.getElem?_eq_some_iff.mp found).1

theorem place_inj {i j i' j' : Nat} (row : i < rows) (inside : j < count i) (row' : i' < rows)
    (inside' : j' < count i') (same : rowStart count i + j = rowStart count i' + j') :
    i = i' ∧ j = j' := by
  have found := ragged_get Prod.mk row inside
  rw [same, ragged_get Prod.mk row' inside'] at found
  cases found
  exact ⟨rfl, rfl⟩

variable (rows count)

/-- Repetition of a column. -/
theorem repeats_column (entry : Nat → Value) :
    repeats (column rows entry) (column rows count) = ragged rows count fun i _ => entry i := by
  rw [repeats, zip, zipWith_column, column, flatMap_map, ragged]
  apply flatMap_congr
  intro i _
  rw [map_const', length_range]

/-- All entries, numbered through. -/
theorem range_ragged :
    List.range (rowStart count rows) = ragged rows count fun i j => rowStart count i + j := by
  induction rows with
  | zero => rfl
  | succ rows ih =>
    rw [start_succ, range_add, ih, ragged_succ]

end Ragged

/-! Lanes of a program: more than there are entries, the others masked out. -/

section Lanes
variable (lane : Nat → Value) (keep : Value → Bool)

theorem filter_lanes {size bound : Nat} (le : bound ≤ size)
    (masked : ∀ j < size, keep (lane j) = decide (j < bound)) :
    ((List.range size).map lane).filter keep = (List.range bound).map lane := by
  obtain ⟨rest, rfl⟩ := Nat.exists_eq_add_of_le le
  have inside : ((range bound).map lane).filter keep = (range bound).map lane := by
    apply filter_eq_self.mpr
    intro value member
    obtain ⟨j, listed, rfl⟩ := mem_map.mp member
    have below := mem_range.mp listed
    rw [masked j (by omega), decide_eq_true below]
  have behind : (((range rest).map (bound + ·)).map lane).filter keep = [] := by
    apply filter_eq_nil_iff.mpr
    intro value member
    obtain ⟨_, shifted, rfl⟩ := mem_map.mp member
    obtain ⟨j, listed, rfl⟩ := mem_map.mp shifted
    have below := mem_range.mp listed
    rw [masked (bound + j) (by omega), decide_eq_false (by omega)]
    exact Bool.false_ne_true
  rw [range_add, map_append, filter_append, inside, behind, append_nil]

theorem filter_ragged {rows : Nat} {wide count : Nat → Nat} {entry : Nat → Nat → Value}
    (le : ∀ i < rows, count i ≤ wide i)
    (masked : ∀ i < rows, ∀ j < wide i, keep (entry i j) = decide (j < count i)) :
    (ragged rows wide entry).filter keep = ragged rows count entry := by
  induction rows with
  | zero => rfl
  | succ rows ih =>
    rw [ragged_succ, ragged_succ, filter_append,
      ih (fun i inside => le i (by omega)) fun i inside => masked i (by omega),
      filter_lanes _ keep (le rows (Nat.lt_succ_self rows)) (masked rows (Nat.lt_succ_self rows))]

/-- The blocks of a program, one after another. -/
theorem blocks_lanes (size blocks : Nat) :
    ((List.range blocks).map fun block => (List.range' (block * size) size).map lane).flatten =
      (List.range (blocks * size)).map lane := by
  induction blocks with
  | zero => rw [Nat.zero_mul]; rfl
  | succ blocks ih =>
    rw [range_succ, map_append, flatten_append, ih, map_singleton,
      flatten_singleton, Nat.succ_mul, range_add, map_append, range'_eq_map_range]

end Lanes

/-! Running sums. -/

theorem cumsumFrom_append (sum : Int) (values : List Int) (value : Int) :
    cumsumFrom sum (values ++ [value]) = cumsumFrom sum values ++ [sum + values.sum + value] := by
  induction values generalizing sum with
  | nil => rw [sum_nil, Int.add_zero]; rfl
  | cons first values ih =>
    rw [cons_append, cumsumFrom, cumsumFrom, ih, sum_cons, cons_append, Int.add_assoc sum]

theorem cumsum_column (rows : Nat) (entry : Nat → Int) :
    cumsum (column rows entry) = column rows fun i => (column (i + 1) entry).sum := by
  induction rows with
  | zero => rfl
  | succ rows ih =>
    rw [column_succ, column_succ, column_succ, cumsum, cumsumFrom_append, ← cumsum, ih, sum_append,
      sum_singleton, Int.zero_add]

theorem sum_natCast (rows : Nat) (entry : Nat → Nat) :
    (counts rows entry).sum = rowStart entry rows := by
  induction rows with
  | zero => rfl
  | succ rows ih =>
    rw [counts] at ih ⊢
    rw [column_succ, sum_append, ih, sum_singleton, start_succ]
    rfl

theorem cumsum_natCast (rows : Nat) (count : Nat → Nat) :
    cumsum (counts rows count) = counts rows fun i => rowStart count (i + 1) := by
  rw [counts, cumsum_column]
  exact column_congr fun i _ => sum_natCast (i + 1) count

theorem mapM_some {Item : Type} (items : List Item) (read : Item → Option Result) (value : Item → Result)
    (each : ∀ item ∈ items, read item = some (value item)) : items.mapM read = some (items.map value) := by
  induction items with
  | nil => rfl
  | cons item items ih =>
    rw [mapM_cons, each item mem_cons_self,
      ih fun other member => each other (mem_cons_of_mem item member)]
    rfl

theorem mapM_none {Item : Type} {items : List Item} {read : Item → Option Result} {item : Item}
    (member : item ∈ items) (fails : read item = none) : items.mapM read = none := by
  cases mapped : items.mapM read with
  | none => rfl
  | some results =>
    obtain ⟨i, found⟩ := mem_iff_getElem?.mp member
    obtain ⟨length, each⟩ := mapM_read mapped
    have bound := (List.getElem?_eq_some_iff.mp found).1
    have made := each i item found
    rw [fails, List.getElem?_eq_none_iff, length] at made
    omega

/-- A map over a column that reads every entry. -/
theorem mapM_column {Item : Type} (rows : Nat) (item : Nat → Item) (read : Item → Option Result)
    (value : Nat → Result) (each : ∀ i < rows, read (item i) = some (value i)) :
    (column rows item).mapM read = some (column rows value) := by
  rw [column, mapM_map]
  exact mapM_some _ _ _ fun i listed => each i (mem_range.mp listed)

theorem mem_ragged {rows : Nat} {count : Nat → Nat} {entry : Nat → Nat → Value} {value : Value}
    (member : value ∈ ragged rows count entry) : ∃ i < rows, ∃ j < count i, entry i j = value := by
  obtain ⟨i, row, inside⟩ := mem_flatMap.mp member
  obtain ⟨j, listed, same⟩ := mem_map.mp inside
  exact ⟨i, mem_range.mp row, j, mem_range.mp listed, same⟩

theorem mapM_ragged {Item : Type} (rows : Nat) (count : Nat → Nat) (item : Nat → Nat → Item)
    (read : Item → Option Result) (value : Nat → Nat → Result)
    (each : ∀ i < rows, ∀ j < count i, read (item i j) = some (value i j)) :
    (ragged rows count item).mapM read = some (ragged rows count value) := by
  rw [ragged_pairs _ _ item, mapM_map, ragged_pairs _ _ value]
  apply mapM_some
  intro place member
  obtain ⟨i, row, j, inside, rfl⟩ := mem_ragged member
  exact each i row j inside

/-- The starts of the rows and the end of the last one. -/
theorem starts_counts (rows : Nat) (count : Nat → Nat) :
    (0 :: cumsum (counts rows count)) = counts (rows + 1) (rowStart count) := by
  rw [cumsum_natCast, counts, counts, column, column, range_succ_eq_map, map_cons, map_map]
  rfl

end VllmDcu.RaggedArrays

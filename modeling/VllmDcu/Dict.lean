import Mathlib.Algebra.GroupWithZero.Nat
import Mathlib.Data.List.Nodup
import Mathlib.Algebra.BigOperators.Group.List.Basic

/-! Insertion-ordered dictionaries. Assignment keeps the place of a key that is
already there and appends a new one, which is the iteration order of the
dictionaries this models. Key uniqueness is a field, so a dictionary with two
entries for one key cannot be built. -/
namespace VllmDcu.Dict
open List

variable {Key Value : Type} [DecidableEq Key]

def find (entries : List (Key × Value)) (key : Key) : Option Value :=
  match entries with
  | [] => none
  | (k, v) :: rest => if k = key then some v else find rest key

def assign (entries : List (Key × Value)) (key : Key) (value : Value) : List (Key × Value) :=
  match entries with
  | [] => [(key, value)]
  | (k, v) :: rest => if k = key then (key, value) :: rest else (k, v) :: assign rest key value

def remove (entries : List (Key × Value)) (key : Key) : List (Key × Value) :=
  entries.filter fun entry => !decide (entry.1 = key)

variable (entries : List (Key × Value)) (key : Key)

theorem assign_keys (value : Value) :
    (assign entries key value).map Prod.fst =
      if key ∈ entries.map Prod.fst then entries.map Prod.fst
      else entries.map Prod.fst ++ [key] := by
  induction entries with
  | nil => simp [assign]
  | cons entry rest ih =>
    obtain ⟨k, v⟩ := entry
    by_cases same : k = key
    · subst same
      simp [assign]
    · by_cases present : key ∈ rest.map Prod.fst
      · simp only [assign, same, ↓reduceIte, map_cons, ih, present]
        simp [mem_cons, present]
      · have absent : key ∉ (k :: rest.map Prod.fst) := by simp [Ne.symm same, present]
        simp only [assign, same, ↓reduceIte, map_cons, ih, present, absent]
        rfl

theorem assign_unique (value : Value) (unique : (entries.map Prod.fst).Nodup) :
    ((assign entries key value).map Prod.fst).Nodup := by
  rw [assign_keys]
  split
  · exact unique
  · rename_i absent
    exact nodup_append.mpr ⟨unique, by simp, by
      rintro a inOld b inNew rfl
      simp only [mem_singleton] at inNew
      exact absent (inNew ▸ inOld)⟩

theorem assign_assign (first second : Value) :
    assign (assign entries key first) key second = assign entries key second := by
  induction entries with
  | nil => simp [assign]
  | cons entry rest ih =>
    obtain ⟨k, v⟩ := entry
    by_cases same : k = key
    · simp [assign, same]
    · simp [assign, same, ih]

omit [DecidableEq Key] in
theorem filter_unique (keep : Key × Value → Bool) (unique : (entries.map Prod.fst).Nodup) :
    ((entries.filter keep).map Prod.fst).Nodup :=
  ((filter_sublist (l := entries)).map Prod.fst).nodup unique

end VllmDcu.Dict

namespace VllmDcu

structure Dict (Key Value : Type) where
  entries : List (Key × Value)
  unique : (entries.map Prod.fst).Nodup

namespace Dict
variable {Key Value : Type}

def empty : Dict Key Value := ⟨[], List.nodup_nil⟩

def keys (d : Dict Key Value) : List Key := d.entries.map Prod.fst

def values (d : Dict Key Value) : List Value := d.entries.map Prod.snd

/-- The dictionary with every value replaced. -/
def mapValues (change : Key → Value → Value) (d : Dict Key Value) : Dict Key Value :=
  ⟨d.entries.map fun (key, value) => (key, change key value), by
    rw [List.map_map]
    exact d.unique⟩

variable [DecidableEq Key]

def get? (d : Dict Key Value) (key : Key) : Option Value := find d.entries key

def set (d : Dict Key Value) (key : Key) (value : Value) : Dict Key Value :=
  ⟨assign d.entries key value, assign_unique d.entries key value d.unique⟩

/-- `d.pop(key, None)` without the value. -/
def erase (d : Dict Key Value) (key : Key) : Dict Key Value :=
  ⟨remove d.entries key, filter_unique d.entries _ d.unique⟩

def contains (d : Dict Key Value) (key : Key) : Bool := (d.get? key).isSome

variable (entries : List (Key × Value)) (key : Key)

theorem find_assign (other : Key) (value : Value) :
    find (assign entries key value) other =
      if other = key then some value else find entries other := by
  induction entries with
  | nil =>
    by_cases same : other = key
    · simp [assign, find, same]
    · simp [assign, find, same, Ne.symm same]
  | cons entry rest ih =>
    obtain ⟨k, v⟩ := entry
    by_cases here : k = key
    · subst here
      by_cases same : other = k
      · simp [assign, find, same]
      · simp [assign, find, same, Ne.symm same]
    · by_cases same : k = other
      · subst same
        simp [assign, find, here]
      · simp [assign, find, here, same, ih]

theorem find_remove (other : Key) :
    find (remove entries key) other = if other = key then none else find entries other := by
  induction entries with
  | nil => simp [remove, find]
  | cons entry rest ih =>
    obtain ⟨k, v⟩ := entry
    simp only [remove] at ih ⊢
    by_cases here : k = key
    · subst here
      by_cases same : other = k
      · simpa [same] using ih
      · simpa [find, same, Ne.symm same] using ih
    · by_cases same : k = other
      · subst same
        simp [find, here]
      · simpa [find, here, same] using ih

@[simp] theorem get?_empty : (empty : Dict Key Value).get? key = none := rfl

variable (d : Dict Key Value)

@[simp] theorem get?_set (key other : Key) (value : Value) :
    (d.set key value).get? other = if other = key then some value else d.get? other :=
  find_assign d.entries key other value

/-- The later of two assignments to a key counts. -/
@[simp] theorem set_set (key : Key) (first second : Value) :
    (d.set key first).set key second = d.set key second := by
  simp only [set, assign_assign]

@[simp] theorem get?_erase (key other : Key) :
    (d.erase key).get? other = if other = key then none else d.get? other :=
  find_remove d.entries key other

theorem mem_of_find (value : Value) (found : find entries key = some value) :
    (key, value) ∈ entries := by
  induction entries with
  | nil => simp [find] at found
  | cons entry rest ih =>
    obtain ⟨k, v⟩ := entry
    by_cases same : k = key
    · simp only [find, same, ↓reduceIte, Option.some.injEq] at found
      simp [same, found]
    · simp only [find, same, ↓reduceIte] at found
      exact List.mem_cons_of_mem _ (ih found)

theorem find_of_mem (unique : (entries.map Prod.fst).Nodup) (key : Key) (value : Value)
    (member : (key, value) ∈ entries) :
    find entries key = some value := by
  induction entries with
  | nil => simp at member
  | cons entry rest ih =>
    obtain ⟨k, v⟩ := entry
    simp only [List.map_cons, List.nodup_cons] at unique
    rcases List.mem_cons.mp member with same | inRest
    · simp only [Prod.mk.injEq] at same
      simp [find, same.1, same.2]
    · have differs : k ≠ key := by
        rintro rfl
        exact unique.1 (List.mem_map_of_mem (f := Prod.fst) inRest)
      simpa [find, differs] using ih unique.2 inRest

theorem get?_eq_some_iff {key : Key} {value : Value} :
    d.get? key = some value ↔ (key, value) ∈ d.entries :=
  ⟨mem_of_find d.entries key value, find_of_mem d.entries d.unique key value⟩

theorem mem_keys_iff (key : Key) : key ∈ d.keys ↔ ∃ value, d.get? key = some value := by
  simp only [keys, List.mem_map, get?_eq_some_iff]
  constructor
  · rintro ⟨⟨k, v⟩, member, rfl⟩
    exact ⟨v, member⟩
  · rintro ⟨value, member⟩
    exact ⟨(key, value), member, rfl⟩

@[simp] theorem mem_keys_set (key other : Key) (value : Value) :
    other ∈ (d.set key value).keys ↔ other = key ∨ other ∈ d.keys := by
  by_cases same : other = key <;> simp [mem_keys_iff, same]

@[simp] theorem mem_keys_erase (key other : Key) :
    other ∈ (d.erase key).keys ↔ other ≠ key ∧ other ∈ d.keys := by
  by_cases same : other = key <;> simp [mem_keys_iff, same]

theorem entries_erase_head {d : Dict Key Value} {key : Key} {value : Value} {rest : List (Key × Value)}
    (listed : d.entries = (key, value) :: rest) : (d.erase key).entries = rest := by
  have unique := d.unique
  rw [listed, List.map_cons, List.nodup_cons] at unique
  change d.entries.filter (fun entry => !decide (entry.1 = key)) = rest
  rw [listed, List.filter_cons]
  simp only [decide_true, Bool.not_true, Bool.false_eq_true, if_false]
  apply List.filter_eq_self.mpr
  intro entry member
  rw [Bool.not_eq_true', decide_eq_false_iff_not]
  intro same
  have twice : entry.1 ∈ rest.map Prod.fst := List.mem_map_of_mem member
  exact unique.1 (same ▸ twice)

theorem length_erase_lt {d : Dict Key Value} {key : Key} {value : Value}
    (found : d.get? key = some value) : (d.erase key).entries.length < d.entries.length := by
  apply List.length_filter_lt_length_iff_exists.mpr
  refine ⟨(key, value), (get?_eq_some_iff d).mp found, ?_⟩
  simp

/-- The sum of a measure over all entries, with a missing key counting nothing. -/
def total (measure : Value → Nat) (d : Dict Key Value) : Nat := (d.values.map measure).sum

def measureAt (measure : Value → Nat) (d : Dict Key Value) (key : Key) : Nat :=
  (d.get? key).elim 0 measure

variable (measure : Value → Nat)

omit [DecidableEq Key] in
@[simp] theorem total_empty : total measure (empty : Dict Key Value) = 0 := rfl

theorem assign_total {entries : List (Key × Value)} {key : Key} {value : Value} :
    (((assign entries key value).map Prod.snd).map measure).sum + (find entries key).elim 0 measure =
      ((entries.map Prod.snd).map measure).sum + measure value := by
  induction entries with
  | nil => simp [assign, find]
  | cons entry rest ih =>
    obtain ⟨k, v⟩ := entry
    by_cases same : k = key
    · simp [assign, find, same]
      omega
    · simp only [assign, find, same, ↓reduceIte, List.map_cons, List.sum_cons]
      omega

theorem remove_total (entries : List (Key × Value)) (unique : (entries.map Prod.fst).Nodup)
    (key : Key) :
    (((remove entries key).map Prod.snd).map measure).sum + (find entries key).elim 0 measure =
      ((entries.map Prod.snd).map measure).sum := by
  induction entries with
  | nil => simp [remove, find]
  | cons entry rest ih =>
    obtain ⟨k, v⟩ := entry
    simp only [List.map_cons, List.nodup_cons] at unique
    by_cases same : k = key
    · subst same
      have untouched : remove rest k = rest := by
        refine List.filter_eq_self.mpr fun entry member => ?_
        have : entry.1 ≠ k := fun equal =>
          unique.1 (equal ▸ List.mem_map_of_mem (f := Prod.fst) member)
        simp [this]
      have gone : remove ((k, v) :: rest) k = remove rest k := by simp [remove]
      simp [gone, untouched, find]
      omega
    · have kept : remove ((k, v) :: rest) key = (k, v) :: remove rest key := by
        simp [remove, same]
      simp only [kept, find, same, ↓reduceIte, List.map_cons, List.sum_cons]
      have := ih unique.2
      omega

theorem total_set (d : Dict Key Value) (key : Key) (value : Value) :
    total measure (d.set key value) + measureAt measure d key = total measure d + measure value :=
  assign_total measure

theorem total_erase (d : Dict Key Value) (key : Key) :
    total measure (d.erase key) + measureAt measure d key = total measure d :=
  remove_total measure d.entries d.unique key

theorem total_eq_zero (d : Dict Key Value) (none : ∀ key, measureAt measure d key = 0) :
    total measure d = 0 := by
  apply List.sum_eq_zero
  intro size member
  obtain ⟨value, inside, rfl⟩ := List.mem_map.mp member
  obtain ⟨⟨key, value⟩, entry, rfl⟩ := List.mem_map.mp inside
  have found := (get?_eq_some_iff d).mpr entry
  have := none key
  rw [measureAt, found] at this
  exact this

theorem measure_le_total (d : Dict Key Value) (key : Key) :
    measureAt measure d key ≤ total measure d := by
  have := total_erase measure d key
  omega

end Dict
end VllmDcu

import Mathlib.Data.List.ReduceOption
import Mathlib.Data.List.Perm.Basic

/-! Tables of slots, some of them free. A newcomer takes the lowest free slot, or
a new one at the end. Closing the gaps hands the lowest free slots to the last
occupants, so that the occupied slots become an initial segment again. -/
namespace VllmDcu.Slots
open List Option

variable {Occupant : Type}

def lowestFree (slots : List (Option Occupant)) : Option Nat :=
  slots.findIdx? Option.isNone

def place (slots : List (Option Occupant)) (newcomer : Occupant) : List (Option Occupant) :=
  match lowestFree slots with
  | some slot => slots.set slot (some newcomer)
  | none => slots ++ [some newcomer]

/-- The free slots filled from the front with the movers in their order. -/
def fill : List (Option Occupant) → List Occupant → List Occupant
  | [], _ => []
  | some occupant :: rest, movers => occupant :: fill rest movers
  | none :: rest, [] => fill rest []
  | none :: rest, mover :: movers => mover :: fill rest movers

def occupied (slots : List (Option Occupant)) : Nat := slots.reduceOption.length

/-- Everyone beyond the new size moves down, the last occupant first. -/
def closeGaps (slots : List (Option Occupant)) : List Occupant :=
  fill (slots.take (occupied slots)) (slots.drop (occupied slots)).reduceOption.reverse

def relocate (slots : List (Option Occupant)) (source target : Nat) : List (Option Occupant) :=
  (slots.set target slots[source]?.join).set source none

def exchange (occupants : List Occupant) (i j : Nat) : List Occupant :=
  match occupants[i]?, occupants[j]? with
  | some first, some second => (occupants.set i second).set j first
  | _, _ => occupants

variable (slots : List (Option Occupant)) (i : Nat)

theorem split_at {x : Option Occupant} (found : slots[i]? = some x) :
    ∃ front back, slots = front ++ x :: back ∧ front.length = i := by
  obtain ⟨bound, value⟩ := List.getElem?_eq_some_iff.mp found
  exact ⟨slots.take i, slots.drop (i + 1), by
    rw [← value]
    exact (take_append_drop i slots).symm.trans (congrArg _ (drop_eq_getElem_cons bound)), by
    simp only [length_take]
    omega⟩

theorem set_split (front back : List (Option Occupant)) (x y : Option Occupant) :
    (front ++ x :: back).set front.length y = front ++ y :: back := by
  simp

variable (occupants : List Occupant)

theorem reduceOption_map_some : (occupants.map some).reduceOption = occupants := by
  induction occupants with
  | nil => rfl
  | cons occupant rest ih => rw [map_cons, reduceOption_cons_of_some, ih]

/-- A list without a free slot is a list of occupants. -/
theorem all_occupied (full : none ∉ slots) :
    ∃ occupants : List Occupant, slots = occupants.map some := by
  induction slots with
  | nil => exact ⟨[], rfl⟩
  | cons head rest ih =>
    obtain ⟨occupants, same⟩ := ih (fun member => full (mem_cons_of_mem head member))
    cases head with
    | none => exact absurd mem_cons_self full
    | some occupant => exact ⟨occupant :: occupants, by rw [same, map_cons]⟩

theorem reduceOption_free (empty : ∀ x, some x ∉ slots) : slots.reduceOption = [] := by
  apply eq_nil_iff_forall_not_mem.mpr
  intro x member
  exact empty x (reduceOption_mem_iff.mp member)

variable (rest : List (Option Occupant))

theorem fill_append (movers : List Occupant) :
    fill (occupants.map some ++ rest) movers = occupants ++ fill rest movers := by
  induction occupants with
  | nil => rfl
  | cons occupant occupants ih =>
    rw [map_cons, cons_append, fill, ih, cons_append]

theorem fill_perm (movers : List Occupant)
    (enough : slots.length = slots.reduceOption.length + movers.length) :
    (fill slots movers).Perm (slots.reduceOption ++ movers) := by
  induction slots generalizing movers with
  | nil =>
    cases movers with
    | nil => exact Perm.refl _
    | cons mover movers => simp at enough
  | cons head rest ih =>
    cases head with
    | some occupant =>
      rw [reduceOption_cons_of_some] at enough ⊢
      simp only [length_cons] at enough
      exact (ih movers (by omega)).cons occupant
    | none =>
      rw [reduceOption_cons_of_none] at enough ⊢
      simp only [length_cons] at enough
      have few := reduceOption_length_le rest
      cases movers with
      | nil =>
        simp only [length_nil] at enough
        omega
      | cons mover movers =>
        simp only [length_cons] at enough
        have later := (ih movers (by omega)).cons mover
        exact later.trans perm_middle.symm

theorem occupied_split (n : Nat) :
    occupied slots = (slots.take n).reduceOption.length + (slots.drop n).reduceOption.length := by
  unfold occupied
  rw [← length_append, ← reduceOption_append, take_append_drop]

/-- Closing the gaps loses nobody and seats nobody twice. -/
theorem closeGaps_perm : (closeGaps slots).Perm slots.reduceOption := by
  have sizes := occupied_split slots (occupied slots)
  have bound : occupied slots ≤ slots.length := reduceOption_length_le slots
  have filled := fill_perm (slots.take (occupied slots))
    (slots.drop (occupied slots)).reduceOption.reverse (by
      rw [length_take, length_reverse]
      omega)
  apply filled.trans
  apply ((reverse_perm _).append_left _).trans
  rw [← reduceOption_append, take_append_drop]

theorem closeGaps_length :
    (closeGaps slots).length = occupied slots := (closeGaps_perm slots).length_eq

/-- A prefix full of occupants, as long as there are occupants, is the closed table. -/
theorem closeGaps_dense (empty : ∀ x, some x ∉ rest) :
    closeGaps (occupants.map some ++ rest) = occupants := by
  have size : occupied (occupants.map some ++ rest) = occupants.length := by
    unfold occupied
    rw [reduceOption_append, reduceOption_map_some, reduceOption_free rest empty, append_nil]
  have front : (occupants.map some ++ rest).take occupants.length = occupants.map some ++ [] := by
    simp
  unfold closeGaps
  rw [size, front, fill_append]
  exact append_nil occupants

/-- The table with the last occupant in the lowest free slot closes to the same list. -/
theorem closeGaps_relocate {between rest : List (Option Occupant)} {mover : Occupant}
    (empty : ∀ x, some x ∉ rest) :
    closeGaps (occupants.map some ++ some mover :: (between ++ none :: rest)) =
      closeGaps (occupants.map some ++ none :: (between ++ some mover :: rest)) := by
  have sizeAfter : occupied (occupants.map some ++ some mover :: (between ++ none :: rest)) =
      occupants.length + 1 + between.reduceOption.length := by
    unfold occupied
    simp only [reduceOption_append, reduceOption_map_some, reduceOption_cons_of_some,
      reduceOption_cons_of_none, reduceOption_free rest empty, length_append,
      length_cons, length_nil]
    omega
  have sizeBefore : occupied (occupants.map some ++ none :: (between ++ some mover :: rest)) =
      occupants.length + 1 + between.reduceOption.length := by
    unfold occupied
    simp only [reduceOption_append, reduceOption_map_some, reduceOption_cons_of_some,
      reduceOption_cons_of_none, reduceOption_free rest empty, length_append,
      length_cons, length_nil]
    omega
  -- The new size cuts the table somewhere between the free slot and the mover.
  have few := reduceOption_length_le between
  have cut (head tail : Option Occupant) :
      (occupants.map some ++ head :: (between ++ tail :: rest)).take
          (occupants.length + 1 + between.reduceOption.length) =
        occupants.map some ++ head :: between.take between.reduceOption.length := by
    rw [take_append, take_of_length_le (by simp; omega), length_map]
    rw [show occupants.length + 1 + between.reduceOption.length - occupants.length =
      between.reduceOption.length + 1 by omega, take_succ_cons,
      take_append_of_le_length few]
  have remainder (head tail : Option Occupant) :
      (occupants.map some ++ head :: (between ++ tail :: rest)).drop
          (occupants.length + 1 + between.reduceOption.length) =
        between.drop between.reduceOption.length ++ tail :: rest := by
    rw [drop_append, drop_eq_nil_of_le (by simp; omega), length_map, nil_append]
    rw [show occupants.length + 1 + between.reduceOption.length - occupants.length =
      between.reduceOption.length + 1 by omega, drop_succ_cons,
      drop_append_of_le_length few]
  unfold closeGaps
  rw [sizeAfter, sizeBefore, cut, cut, remainder, remainder, fill_append, fill_append]
  simp only [reduceOption_append, reduceOption_cons_of_none,
    reduceOption_cons_of_some, reduceOption_free rest empty, append_nil, fill,
    reverse_append, reverse_singleton, singleton_append]

theorem exchange_perm (i j : Nat) : (exchange occupants i j).Perm occupants := by
  unfold exchange
  split
  · rename_i first second here there
    obtain ⟨boundI, rfl⟩ := List.getElem?_eq_some_iff.mp here
    obtain ⟨boundJ, rfl⟩ := List.getElem?_eq_some_iff.mp there
    exact set_set_perm boundI boundJ
  · exact Perm.refl _

theorem exchange_length (i j : Nat) :
    (exchange occupants i j).length = occupants.length := (exchange_perm occupants i j).length_eq

theorem exchange_getElem? (i j k : Nat) (boundI : i < occupants.length)
    (boundJ : j < occupants.length) :
    (exchange occupants i j)[k]? =
      if k = j then occupants[i]? else if k = i then occupants[j]? else occupants[k]? := by
  simp only [exchange, getElem?_eq_getElem boundI, getElem?_eq_getElem boundJ,
    getElem?_set, length_set]
  by_cases second : k = j
  · subst second
    simp [boundJ]
  · by_cases first : k = i
    · subst first
      simp [second, boundI, Ne.symm second]
    · simp [second, first, Ne.symm second, Ne.symm first]

/-! The lowest free slot is where a search from the front stops. -/

theorem lowestFree_some {slot : Nat} (lowest : lowestFree slots = some slot) :
    slots[slot]? = some none ∧ ∀ i < slot, ∃ x, slots[i]? = some (some x) := by
  obtain ⟨bound, here, before⟩ := findIdx?_eq_some_iff_getElem.mp lowest
  constructor
  · rw [getElem?_eq_getElem bound, isNone_iff_eq_none.mp here]
  · intro i earlier
    have taken := before i earlier
    have inside : i < slots.length := by omega
    cases value : slots[i] with
    | none => simp [value] at taken
    | some x => exact ⟨x, by rw [getElem?_eq_getElem inside, value]⟩

theorem lowestFree_none (lowest : lowestFree slots = none) : none ∉ slots := by
  intro member
  have taken := findIdx?_eq_none_iff.mp lowest none member
  simp at taken

theorem lowestFree_eq (slot : Nat) (here : slots[slot]? = some none)
    (before : ∀ i < slot, slots[i]? ≠ some none) : lowestFree slots = some slot := by
  obtain ⟨bound, value⟩ := List.getElem?_eq_some_iff.mp here
  apply findIdx?_eq_some_iff_getElem.mpr
  refine ⟨bound, by rw [value]; rfl, fun i earlier => ?_⟩
  have taken := before i earlier
  have inside : i < slots.length := by omega
  rw [getElem?_eq_getElem inside] at taken
  cases value : slots[i] with
  | none => exact absurd (congrArg some value) taken
  | some x => simp

variable (occupant : Occupant)

theorem reduceOption_set (free : slots[i]? = some none) :
    (slots.set i (some occupant)).reduceOption.Perm (occupant :: slots.reduceOption) := by
  obtain ⟨front, back, rfl, rfl⟩ := split_at slots i free
  rw [set_split, reduceOption_append, reduceOption_append]
  exact perm_middle

variable (newcomer : Occupant)

theorem place_perm : (place slots newcomer).reduceOption.Perm (newcomer :: slots.reduceOption) := by
  unfold place
  split
  · rename_i slot lowest
    exact reduceOption_set slots slot newcomer (lowestFree_some slots lowest).1
  · rw [reduceOption_append]
    exact perm_append_singleton newcomer slots.reduceOption

variable (k : Nat)

theorem place_getElem? :
    (place slots newcomer)[k]? =
      if k = (lowestFree slots).getD slots.length then some (some newcomer) else slots[k]? := by
  unfold place
  split
  · rename_i slot lowest
    obtain ⟨bound, -⟩ := List.getElem?_eq_some_iff.mp (lowestFree_some slots lowest).1
    rw [lowest]
    by_cases here : k = slot
    · simp [here, bound]
    · simp [here, Ne.symm here]
  · rename_i lowest
    rw [lowest, getD_none, getElem?_append]
    by_cases inside : k < slots.length
    · simp [inside, Nat.ne_of_lt inside]
    · by_cases here : k = slots.length
      · simp [here]
      · rw [if_neg inside, if_neg here, getElem?_eq_none (by simp; omega),
          getElem?_eq_none (by omega)]

/-! Who sits at an index. -/

def seat (slots : List (Option Occupant)) (i : Nat) : Option Occupant := slots[i]?.join

theorem seat_eq_some : seat slots i = some occupant ↔ slots[i]? = some (some occupant) :=
  join_eq_some_iff

theorem seat_bound (sits : seat slots i = some occupant) : i < slots.length :=
  (List.getElem?_eq_some_iff.mp ((seat_eq_some slots i occupant).mp sits)).1

theorem seat_map_some (i : Nat) : seat (occupants.map some) i = occupants[i]? := by
  unfold seat
  rw [getElem?_map]
  cases occupants[i]? <;> rfl

theorem seat_append_free (empty : ∀ x, some x ∉ rest) (k : Nat) :
    seat (occupants.map some ++ rest) k = occupants[k]? := by
  unfold seat
  by_cases inside : k < occupants.length
  · rw [getElem?_append_left (by simpa using inside), getElem?_map]
    cases occupants[k]? <;> rfl
  · rw [getElem?_append_right (by simpa using inside), getElem?_eq_none (Nat.le_of_not_lt inside)]
    cases found : rest[k - (occupants.map some).length]? with
    | none => rfl
    | some slot =>
      cases slot with
      | none => rfl
      | some x => exact absurd (mem_of_getElem? found) (empty x)

theorem seat_set (x : Option Occupant) (bound : i < slots.length) :
    seat (slots.set i x) k = if k = i then x else seat slots k := by
  unfold seat
  by_cases here : k = i
  · subst here
    simp [bound]
  · simp [here, Ne.symm here]

theorem seat_place :
    seat (place slots newcomer) k =
      if k = (lowestFree slots).getD slots.length then some newcomer else seat slots k := by
  unfold seat
  rw [place_getElem?]
  split <;> rfl

theorem seat_relocate (source target k : Nat) (sourceBound : source < slots.length)
    (targetBound : target < slots.length) :
    seat (relocate slots source target) k =
      if k = source then none else if k = target then seat slots source else seat slots k := by
  unfold relocate
  rw [seat_set _ _ _ _ (by simpa using sourceBound), seat_set _ _ _ _ targetBound]
  rfl

theorem relocate_perm {source target : Nat} {occupant : Occupant}
    (sits : seat slots source = some occupant) (free : slots[target]? = some none) :
    (relocate slots source target).reduceOption.Perm slots.reduceOption := by
  have here := (seat_eq_some slots source occupant).mp sits
  have different : target ≠ source := by
    rintro rfl
    rw [here] at free
    exact absurd (some.inj free) (by simp)
  have bound := seat_bound slots source occupant sits
  unfold relocate
  rw [show slots[source]?.join = some occupant from sits]
  -- Seating the occupant again at its old place gives the table with two copies of it.
  have again := reduceOption_set ((slots.set target (some occupant)).set source none) source
    occupant (by simp [bound])
  have twice : (((slots.set target (some occupant)).set source none).set source
      (some occupant)) = slots.set target (some occupant) := by
    rw [List.set_set]
    apply ext_getElem?
    intro k
    rw [getElem?_set]
    by_cases atSource : source = k
    · subst atSource
      rw [getElem?_set, if_neg different, here]
      simp [bound]
    · rw [if_neg atSource]
  rw [twice] at again
  have placed := reduceOption_set slots target occupant free
  exact Perm.cons_inv (again.symm.trans placed)

theorem mem_reduceOption_iff :
    occupant ∈ slots.reduceOption ↔ ∃ i, seat slots i = some occupant := by
  rw [reduceOption_mem_iff, mem_iff_getElem?]
  exact exists_congr fun i => (seat_eq_some slots i occupant).symm

/-- A table that is occupied up to some index and free from there on. -/
theorem split_occupied (m : Nat) (front : ∀ i < m, ∃ x, seat slots i = some x)
    (beyond : ∀ i, m ≤ i → seat slots i = none) :
    ∃ (occupants : List Occupant) (rest : List (Option Occupant)),
      slots = occupants.map some ++ rest ∧ occupants.length = m ∧ ∀ x, some x ∉ rest := by
  have bound : m ≤ slots.length := by
    cases m with
    | zero => exact Nat.zero_le _
    | succ n =>
      obtain ⟨x, sits⟩ := front n (Nat.lt_succ_self n)
      exact seat_bound slots n x sits
  have full : none ∉ slots.take m := by
    intro member
    obtain ⟨i, found⟩ := mem_iff_getElem?.mp member
    rw [getElem?_take] at found
    split at found
    · rename_i inside
      obtain ⟨x, sits⟩ := front i inside
      rw [(seat_eq_some slots i x).mp sits] at found
      exact absurd (some.inj found) (by simp)
    · contradiction
  obtain ⟨occupants, same⟩ := all_occupied (slots.take m) full
  refine ⟨occupants, slots.drop m, ?_, ?_, ?_⟩
  · rw [← same, take_append_drop]
  · have length := congrArg length same
    simp only [length_take, length_map] at length
    omega
  · intro x member
    obtain ⟨i, found⟩ := mem_iff_getElem?.mp member
    rw [getElem?_drop] at found
    have sits := (seat_eq_some slots (m + i) x).mpr found
    rw [beyond (m + i) (Nat.le_add_right m i)] at sits
    contradiction

variable (last empty : Nat)

theorem closeGaps_move (occupant : Occupant) (lowest : lowestFree slots = some empty)
    (sits : seat slots last = some occupant) (below : empty < last)
    (beyond : ∀ i, last < i → seat slots i = none) :
    closeGaps (relocate slots last empty) = closeGaps slots := by
  obtain ⟨free, before⟩ := lowestFree_some slots lowest
  obtain ⟨front, behind, rfl, rfl⟩ := split_at slots empty free
  have full : none ∉ front := by
    intro member
    obtain ⟨i, found⟩ := mem_iff_getElem?.mp member
    have inside := (List.getElem?_eq_some_iff.mp found).1
    obtain ⟨x, taken⟩ := before i inside
    rw [getElem?_append_left inside, found] at taken
    exact absurd (some.inj taken) (by simp)
  obtain ⟨occupants, rfl⟩ := all_occupied front full
  -- The mover stands somewhere behind the free slot.
  obtain ⟨offset, rfl⟩ : ∃ offset, last = (occupants.map some).length + 1 + offset :=
    ⟨last - ((occupants.map some).length + 1), by omega⟩
  have here := (seat_eq_some _ _ occupant).mp sits
  rw [getElem?_append_right (by omega),
    show (occupants.map some).length + 1 + offset - (occupants.map some).length = offset + 1 by
      omega] at here
  obtain ⟨between, rest, rfl, rfl⟩ := split_at behind offset here
  have empty : ∀ x, some x ∉ rest := by
    intro x member
    obtain ⟨i, found⟩ := mem_iff_getElem?.mp member
    have nobody := beyond ((occupants.map some).length + 1 + between.length + (i + 1)) (by omega)
    unfold seat at nobody
    rw [getElem?_append_right (by omega), show (occupants.map some).length + 1 +
      between.length + (i + 1) - (occupants.map some).length = between.length + (i + 1) + 1 by omega,
      getElem?_cons_succ, getElem?_append_right (by omega),
      Nat.add_sub_cancel_left, getElem?_cons_succ, found] at nobody
    contradiction
  have moved : relocate (occupants.map some ++ none :: (between ++ some occupant :: rest))
      ((occupants.map some).length + 1 + between.length) (occupants.map some).length =
      occupants.map some ++ some occupant :: (between ++ none :: rest) := by
    unfold relocate
    rw [show (occupants.map some ++ none :: (between ++ some occupant :: rest))[
      (occupants.map some).length + 1 + between.length]?.join = some occupant from sits, set_split]
    rw [set_append_right _ _ (by omega), show (occupants.map some).length + 1 +
      between.length - (occupants.map some).length = between.length + 1 by omega,
      set_cons_succ, set_split]
  rw [moved]
  exact closeGaps_relocate occupants empty

theorem occupied_place : occupied (place slots newcomer) = occupied slots + 1 :=
  (place_perm slots newcomer).length_eq

theorem occupied_set_none (sits : seat slots i = some occupant) :
    occupied (slots.set i none) + 1 = occupied slots := by
  have here := (seat_eq_some slots i occupant).mp sits
  obtain ⟨front, back, rfl, rfl⟩ := split_at slots i here
  unfold occupied
  rw [set_split]
  simp only [reduceOption_append, reduceOption_cons_of_some,
    reduceOption_cons_of_none, length_append, length_cons]
  omega

/-- A table without a free slot has its newcomer at the end. -/
theorem free_of_lowestFree_none (lowest : lowestFree slots = none) :
    occupied slots = slots.length := by
  obtain ⟨occupants, rfl⟩ := all_occupied slots (lowestFree_none slots lowest)
  unfold occupied
  rw [reduceOption_map_some, length_map]

/-! A move goes from beyond the new size to below it. -/

theorem occupied_le_last (free : slots[empty]? = some none) (below : empty < last)
    (beyond : ∀ i, last < i → seat slots i = none) : occupied slots ≤ last := by
  have tail : (slots.drop (last + 1)).reduceOption = [] := by
    apply reduceOption_free
    intro x member
    obtain ⟨i, found⟩ := mem_iff_getElem?.mp member
    rw [getElem?_drop] at found
    have sits := (seat_eq_some slots (last + 1 + i) x).mpr found
    rw [beyond (last + 1 + i) (by omega)] at sits
    contradiction
  have gap : none ∈ slots.take (last + 1) := by
    apply mem_of_getElem? (i := empty)
    rw [getElem?_take, if_pos (by omega)]
    exact free
  have few := reduceOption_length_lt_iff.mpr gap
  rw [length_take] at few
  rw [occupied_split slots (last + 1), tail]
  simp only [length_nil]
  omega

theorem lowestFree_lt_occupied (occupant : Occupant) (lowest : lowestFree slots = some empty)
    (sits : seat slots last = some occupant) (below : empty < last) :
    empty < occupied slots := by
  obtain ⟨-, before⟩ := lowestFree_some slots lowest
  have bound := seat_bound slots last occupant sits
  have front : (slots.take empty).reduceOption.length = empty := by
    have full : none ∉ slots.take empty := by
      intro member
      obtain ⟨i, found⟩ := mem_iff_getElem?.mp member
      have inside := (List.getElem?_eq_some_iff.mp found).1
      rw [length_take] at inside
      obtain ⟨x, taken⟩ := before i (by omega)
      rw [getElem?_take, if_pos (by omega), taken] at found
      exact absurd (some.inj found) (by simp)
    obtain ⟨occupants, same⟩ := all_occupied (slots.take empty) full
    have length := congrArg length same
    rw [length_take, length_map] at length
    rw [same, reduceOption_map_some]
    omega
  have behind : occupant ∈ (slots.drop empty).reduceOption := by
    apply reduceOption_mem_iff.mpr
    apply mem_of_getElem? (i := last - empty)
    rw [getElem?_drop, show empty + (last - empty) = last by omega]
    exact (seat_eq_some slots last occupant).mp sits
  have positive := length_pos_of_mem behind
  rw [occupied_split slots empty]
  omega

end VllmDcu.Slots

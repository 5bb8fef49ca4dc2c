import Mathlib.Data.Finset.Card

/-! A log of changes to a family of entries, one for each index: additions, then
removals, then moves from one index to another. Also the number of entries that are
not blank, kept along the changes. -/
namespace VllmDcu.SlotReplay
open List Function

variable {Entry : Type}

/-- The entry at `source` goes to `target`, and the one at `target` comes back or is lost. -/
structure Move where
  source : Nat
  target : Nat
  exchanges : Bool
  deriving DecidableEq

def transfer (blank : Entry) (entries : Nat → Entry) (move : Move) : Nat → Entry :=
  Function.update
    (Function.update entries move.source (if move.exchanges then entries move.target else blank))
    move.target (entries move.source)

def grow (entries : Nat → Entry) (added : List (Nat × Entry)) : Nat → Entry :=
  added.foldl (fun entries (index, entry) => Function.update entries index entry) entries

def clear (blank : Entry) (entries : Nat → Entry) (removed : List Nat) : Nat → Entry :=
  removed.foldl (fun entries index => Function.update entries index blank) entries

def replay (blank : Entry) (entries : Nat → Entry) (added : List (Nat × Entry))
    (removed : List Nat) (moves : List Move) : Nat → Entry :=
  moves.foldl (transfer blank) (clear blank (grow entries added) removed)

variable (blank : Entry) (entries : Nat → Entry)

theorem clear_apply (removed : List Nat) (i : Nat) :
    clear blank entries removed i = if i ∈ removed then blank else entries i := by
  induction removed generalizing entries with
  | nil => rfl
  | cons index removed ih =>
    unfold clear at ih ⊢
    rw [foldl_cons, ih, update_apply]
    by_cases here : i = index
    · simp [here]
    · simp [here]

theorem clear_blank (removed : List Nat) :
    clear blank (fun _ => blank) removed = fun _ => blank := by
  funext i
  rw [clear_apply, ite_self]

theorem grow_append (added : List (Nat × Entry)) (index : Nat) (entry : Entry) :
    grow entries (added ++ [(index, entry)]) = Function.update (grow entries added) index entry := by
  unfold grow
  rw [foldl_append]
  rfl

theorem transfer_blank (move : Move) : transfer blank (fun _ => blank) move = fun _ => blank := by
  unfold transfer
  rw [ite_self]
  funext i
  simp [update_apply]

theorem transfers_blank (moves : List Move) :
    moves.foldl (transfer blank) (fun _ => blank) = fun _ => blank := by
  induction moves with
  | nil => rfl
  | cons move moves ih => rw [foldl_cons, transfer_blank, ih]

/-- The mover's index is blank afterwards. -/
theorem transfer_apply (source target k : Nat) (different : source ≠ target) :
    transfer blank entries ⟨source, target, false⟩ k =
      if k = source then blank else if k = target then entries source else entries k := by
  unfold transfer
  simp only [update_apply, Bool.false_eq_true, ↓reduceIte]
  by_cases atSource : k = source
  · subst atSource
    rw [if_neg different, if_pos rfl, if_pos rfl]
  · rw [if_neg atSource, if_neg atSource]

theorem transfer_exchange (i j k : Nat) :
    transfer blank entries ⟨i, j, true⟩ k =
      if k = j then entries i else if k = i then entries j else entries k := by
  unfold transfer
  simp only [update_apply, ↓reduceIte]

/-! The number of entries that are not blank. -/

section Counting
variable [DecidableEq Entry]

def Counted (blank : Entry) (count : Int) (entries : Nat → Entry) : Prop :=
  ∃ support : Finset Nat, (∀ i, i ∈ support ↔ entries i ≠ blank) ∧ count = support.card

def weight (blank entry : Entry) : Int := if entry = blank then 0 else 1

omit [DecidableEq Entry] in
theorem counted_blank (blank : Entry) : Counted blank 0 (fun _ => blank) :=
  ⟨∅, fun i => by simp, rfl⟩

omit [DecidableEq Entry] in
theorem Counted.unique {blank : Entry} {count count' : Int} {entries : Nat → Entry}
    (first : Counted blank count entries) (second : Counted blank count' entries) :
    count = count' := by
  obtain ⟨support, members, rfl⟩ := first
  obtain ⟨support', members', rfl⟩ := second
  have same : support = support' := by
    ext i
    rw [members, members']
  rw [same]

omit [DecidableEq Entry] in
theorem Counted.zero {blank : Entry} {entries : Nat → Entry} (counted : Counted blank 0 entries) :
    entries = fun _ => blank := by
  obtain ⟨support, members, size⟩ := counted
  have bare : support = ∅ := Finset.card_eq_zero.mp (by omega)
  funext i
  by_contra different
  have member := (members i).mpr different
  rw [bare] at member
  exact absurd member (Finset.notMem_empty i)

theorem Counted.write {blank : Entry} {count : Int} {entries : Nat → Entry}
    (counted : Counted blank count entries) (i : Nat) (entry : Entry) :
    Counted blank (count + weight blank entry - weight blank (entries i))
      (Function.update entries i entry) := by
  obtain ⟨support, members, rfl⟩ := counted
  by_cases written : entry = blank
  · -- The index leaves the support if it was there.
    refine ⟨support.erase i, ?_, ?_⟩
    · intro k
      rw [Finset.mem_erase, members, update_apply]
      by_cases here : k = i
      · simp [here, written]
      · simp [here]
    · rw [weight, if_pos written, weight]
      by_cases before : entries i = blank
      · have absent : i ∉ support := fun member => (members i).mp member before
        rw [if_pos before, Finset.erase_eq_of_notMem absent]
        omega
      · have present := (members i).mpr before
        have size := Finset.card_erase_add_one present
        rw [if_neg before]
        omega
  · refine ⟨insert i support, ?_, ?_⟩
    · intro k
      rw [Finset.mem_insert, members, update_apply]
      by_cases here : k = i
      · simp [here, written]
      · simp [here]
    · rw [weight, if_neg written, weight]
      by_cases before : entries i = blank
      · have absent : i ∉ support := fun member => (members i).mp member before
        rw [if_pos before, Finset.card_insert_of_notMem absent]
        omega
      · rw [if_neg before, Finset.insert_eq_of_mem ((members i).mpr before)]
        omega

/-- A move loses the entry at its target, an exchange loses nothing. -/
theorem Counted.transfer {blank : Entry} {count : Int} {entries : Nat → Entry}
    (counted : Counted blank count entries) (move : Move)
    (different : move.exchanges = false → move.source ≠ move.target) :
    Counted blank (if move.exchanges then count else count - weight blank (entries move.target))
      (transfer blank entries move) := by
  have first := counted.write move.source (if move.exchanges then entries move.target else blank)
  have both := first.write move.target (entries move.source)
  have same : update (update entries move.source
      (if move.exchanges then entries move.target else blank)) move.target (entries move.source) =
      SlotReplay.transfer blank entries move := rfl
  rw [same] at both
  cases kind : move.exchanges with
  | true =>
    simp only [kind, ↓reduceIte] at both ⊢
    by_cases still : move.source = move.target
    · rw [still, update_self] at both
      rwa [show count + weight blank (entries move.target) - weight blank (entries move.target) +
        weight blank (entries move.target) - weight blank (entries move.target) = count by
          omega] at both
    · rw [update_of_ne (Ne.symm still)] at both
      rwa [show count + weight blank (entries move.target) - weight blank (entries move.source) +
        weight blank (entries move.source) - weight blank (entries move.target) = count by
          omega] at both
  | false =>
    simp only [kind, Bool.false_eq_true, ↓reduceIte] at both ⊢
    have plain : weight blank blank = 0 := if_pos rfl
    rw [update_of_ne (different kind).symm, plain] at both
    rwa [show count + 0 - weight blank (entries move.source) +
      weight blank (entries move.source) - weight blank (entries move.target) =
        count - weight blank (entries move.target) by omega] at both

end Counting
end VllmDcu.SlotReplay

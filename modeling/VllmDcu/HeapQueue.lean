import Mathlib.Data.List.Perm.Basic

/-! Binary heaps in a list, as `heapq` keeps them. Items are compared by `less`; what
is written into the hole at a position is decided at the end of a sift. -/
namespace VllmDcu.HeapQueue
open List

variable {Item : Type}

def parentPos (pos : Nat) : Nat := (pos - 1) / 2

theorem parentPos_lt {pos : Nat} (positive : 0 < pos) : parentPos pos < pos := by
  rw [parentPos]
  omega

/-- `_siftdown`: ancestors of the hole that are greater move down into it. -/
def siftDown (less : Item → Item → Bool) (startPos : Nat) (newItem : Item) (heap : List Item) (pos : Nat) :
    List Item :=
  if _below : startPos < pos then
    match heap[parentPos pos]? with
    | none => heap
    | some parent =>
      if less newItem parent then
        siftDown less startPos newItem (heap.set pos parent) (parentPos pos)
      else heap.set pos newItem
  else heap.set pos newItem
termination_by pos
decreasing_by exact parentPos_lt (by omega)

/-- The first loop of `_siftup`: the smaller child moves up until the hole is a leaf. -/
def sinkHole (less : Item → Item → Bool) (heap : List Item) (pos : Nat) : List Item × Nat :=
  if _within : 2 * pos + 1 < heap.length then
    match heap[2 * pos + 1]?, heap[2 * pos + 2]? with
    | some left, some right =>
      if less left right then sinkHole less (heap.set pos left) (2 * pos + 1)
      else sinkHole less (heap.set pos right) (2 * pos + 2)
    | some left, none => sinkHole less (heap.set pos left) (2 * pos + 1)
    | none, _ => (heap, pos)
  else (heap, pos)
termination_by heap.length - pos
decreasing_by all_goals simp; omega

def siftUp (less : Item → Item → Bool) (heap : List Item) (pos : Nat) : List Item :=
  match heap[pos]? with
  | none => heap
  | some newItem =>
    let (heap, leaf) := sinkHole less heap pos
    siftDown less pos newItem heap leaf

def heappush (less : Item → Item → Bool) (heap : List Item) (item : Item) : List Item :=
  siftDown less 0 item (heap ++ [item]) heap.length

/-- There is no result for an empty heap. -/
def heappop (less : Item → Item → Bool) (heap : List Item) : Option (Item × List Item) :=
  match heap.getLast?, heap.dropLast with
  | none, _ => none
  | some lastItem, [] => some (lastItem, [])
  | some lastItem, first :: rest => some (first, siftUp less (lastItem :: rest) 0)

def heapify (less : Item → Item → Bool) (heap : List Item) : List Item :=
  (List.range (heap.length / 2)).foldr (fun pos heap => siftUp less heap pos) heap

/-- The items that are popped from a copy until it is empty. -/
def popAll (less : Item → Item → Bool) : Nat → List Item → List Item
  | 0, _ => []
  | count + 1, heap =>
    match heappop less heap with
    | none => []
    | some (item, rest) => item :: popAll less count rest

def iterate (less : Item → Item → Bool) (heap : List Item) : List Item := popAll less heap.length heap

/-- The comparison is a strict order whose incomparable items are ties. -/
structure StrictWeak (less : Item → Item → Bool) : Prop where
  asymm : ∀ a b, less a b = true → less b a = false
  trans : ∀ a b c, less b a = false → less c b = false → less c a = false

theorem StrictWeak.irrefl {less : Item → Item → Bool} (order : StrictWeak less) (a : Item) :
    less a a = false := by
  cases same : less a a with
  | false => rfl
  | true => exact same.symm.trans (order.asymm a a same)

/-- The item at `j`, if there is one, does not come before the one at `i`. -/
def Before (less : Item → Item → Bool) (heap : List Item) (i j : Nat) : Prop :=
  ∀ a ∈ heap[i]?, ∀ b ∈ heap[j]?, less b a = false

/-- The parents from `start` on come before their children. -/
def OrderedFrom (less : Item → Item → Bool) (start : Nat) (heap : List Item) : Prop :=
  ∀ i, 0 < i → start ≤ parentPos i → Before less heap (parentPos i) i

def Ordered (less : Item → Item → Bool) (heap : List Item) : Prop := OrderedFrom less 0 heap

/-- The positions of the subtree under `start`. -/
inductive Under (start : Nat) : Nat → Prop
  | root : Under start start
  | child {pos : Nat} (positive : 0 < pos) (above : Under start (parentPos pos)) : Under start pos

theorem Under.le {start pos : Nat} (under : Under start pos) : start ≤ pos := by
  induction under with
  | root => exact Nat.le_refl _
  | child positive _ ih =>
    have shrinks := parentPos_lt positive
    omega

theorem Under.parent {start pos : Nat} (under : Under start pos) (other : pos ≠ start) :
    0 < pos ∧ Under start (parentPos pos) := by
  cases under with
  | root => exact absurd rfl other
  | child positive above => exact ⟨positive, above⟩

theorem under_zero (pos : Nat) : Under 0 pos := by
  induction pos using Nat.strongRecOn with
  | ind pos ih =>
    by_cases positive : 0 < pos
    · exact .child positive (ih _ (parentPos_lt positive))
    · have zero : pos = 0 := by omega
      rw [zero]
      exact .root

section Holes
variable {less : Item → Item → Bool} {heap : List Item} {start pos : Nat}

/-- The pairs that do not touch the hole are in order, and so are its parent and its
children with the hole left out. -/
structure Holed (less : Item → Item → Bool) (start pos : Nat) (heap : List Item) : Prop where
  apart : ∀ i, 0 < i → start ≤ parentPos i → i ≠ pos → parentPos i ≠ pos →
    Before less heap (parentPos i) i
  across : pos ≠ start → ∀ i, 0 < i → parentPos i = pos → Before less heap (parentPos pos) i
  under : Under start pos
  within : pos < heap.length

theorem getElem?_set_within (within : pos < heap.length) (item : Item) (i : Nat) :
    (heap.set pos item)[i]? = if i = pos then some item else heap[i]? := by
  rw [getElem?_set]
  by_cases same : pos = i
  · rw [if_pos same, if_pos within, if_pos same.symm]
  · rw [if_neg same, if_neg (Ne.symm same)]

/-- Moving an item into the hole moves the hole. -/
theorem move_perm {other : Nat} {moved item : Item} (within : pos < heap.length) (differs : other ≠ pos)
    (found : heap[other]? = some moved) :
    ((heap.set pos moved).set other item).Perm (heap.set pos item) := by
  have inside : other < heap.length := (List.getElem?_eq_some_iff.mp found).1
  have here : pos < (heap.set pos item).length := by rwa [length_set]
  have there : other < (heap.set pos item).length := by rwa [length_set]
  have swapped := set_set_perm here there
  rw [getElem_set_self, getElem_set_ne (Ne.symm differs), set_set,
    (List.getElem?_eq_some_iff.mp found).2] at swapped
  exact swapped

/-- An item that comes before the children of the hole finds its place above it. -/
theorem siftDown_spec (order : StrictWeak less) (newItem : Item) (holed : Holed less start pos heap)
    (below : ∀ i, 0 < i → parentPos i = pos → ∀ b ∈ heap[i]?, less b newItem = false) :
    OrderedFrom less start (siftDown less start newItem heap pos) ∧
      (siftDown less start newItem heap pos).Perm (heap.set pos newItem) := by
  induction pos using Nat.strongRecOn generalizing heap with
  | ind pos ih =>
    have within := holed.within
    have read := getElem?_set_within within
    rw [siftDown]
    split
    · obtain ⟨positive, above⟩ := holed.under.parent (by omega)
      have shrinks := parentPos_lt positive
      have inside : parentPos pos < heap.length := by omega
      rw [getElem?_eq_getElem inside]
      dsimp only
      have found := getElem?_eq_getElem inside
      generalize heap[parentPos pos] = parent at found
      split
      · rename_i smaller
        have moved : Holed less start (parentPos pos) (heap.set pos parent) := by
          refine ⟨?_, ?_, above, by rwa [length_set]⟩
          · intro i positive' behind other other' a memberA b memberB
            rw [read] at memberA memberB
            by_cases same : i = pos
            · exact absurd (congrArg parentPos same) other'
            · rw [if_neg same] at memberB
              split at memberA
              · rename_i child
                cases memberA
                exact holed.across (by omega) i positive' child parent found b memberB
              · rename_i other''
                exact holed.apart i positive' behind same other'' a memberA b memberB
          · intro higher i positive' child a memberA b memberB
            obtain ⟨positive'', above'⟩ := above.parent higher
            have up := parentPos_lt positive''
            rw [read, if_neg (by omega)] at memberA
            have parents : less parent a = false :=
              holed.apart (parentPos pos) positive'' above'.le (by omega) (by omega) a memberA parent found
            rw [read] at memberB
            split at memberB
            · cases memberB
              exact parents
            · rename_i sibling
              have siblings : less b parent = false :=
                holed.apart i positive' (child ▸ above.le) sibling (by omega) parent (child ▸ found) b memberB
              exact order.trans a parent b parents siblings
        have under : ∀ i, 0 < i → parentPos i = parentPos pos → ∀ b ∈ (heap.set pos parent)[i]?,
            less b newItem = false := by
          intro i positive' child b member
          rw [read] at member
          split at member
          · cases member
            exact order.asymm newItem parent smaller
          · rename_i sibling
            have siblings : less b parent = false :=
              holed.apart i positive' (child ▸ above.le) sibling (by omega) parent (child ▸ found) b member
            exact order.trans newItem parent b (order.asymm newItem parent smaller) siblings
        obtain ⟨ordered, perm⟩ := ih (parentPos pos) shrinks moved under
        exact ⟨ordered, perm.trans (move_perm within (by omega) found)⟩
      · rename_i settled
        refine ⟨?_, Perm.refl _⟩
        intro i positive' behind a memberA b memberB
        rw [read] at memberA memberB
        split at memberB
        · rename_i same
          cases memberB
          rw [same, if_neg (by omega), found] at memberA
          cases memberA
          simpa using settled
        · rename_i same
          split at memberA
          · rename_i child
            cases memberA
            exact below i positive' child b memberB
          · rename_i child
            exact holed.apart i positive' behind same child a memberA b memberB
    · refine ⟨?_, Perm.refl _⟩
      intro i positive behind a memberA b memberB
      have shrinks := parentPos_lt positive
      rw [read] at memberA memberB
      rw [if_neg (by omega)] at memberB
      split at memberA
      · rename_i child
        cases memberA
        exact below i positive child b memberB
      · rename_i child
        exact holed.apart i positive behind (by omega) child a memberA b memberB

theorem parentPos_children (pos : Nat) :
    parentPos (2 * pos + 1) = pos ∧ parentPos (2 * pos + 2) = pos := by
  rw [parentPos, parentPos]
  omega

theorem child_cases {i : Nat} (positive : 0 < i) (child : parentPos i = pos) :
    i = 2 * pos + 1 ∨ i = 2 * pos + 2 := by
  rw [parentPos] at child
  omega

/-- The hole changes places with the first of its children. -/
theorem Holed.sink {chosen : Item} {c : Nat} (holed : Holed less start pos heap)
    (positive : 0 < c) (child : parentPos c = pos) (found : heap[c]? = some chosen)
    (first : ∀ i, 0 < i → parentPos i = pos → ∀ b ∈ heap[i]?, less b chosen = false) :
    Holed less start c (heap.set pos chosen) := by
  have within := holed.within
  have read := getElem?_set_within within
  have shrinks := parentPos_lt positive
  refine ⟨?_, ?_, .child positive (child ▸ holed.under), ?_⟩
  · intro i positive' behind other other' a memberA b memberB
    rw [read] at memberA memberB
    split at memberB
    · rename_i same
      cases memberB
      have shrinks' := parentPos_lt positive'
      rw [same] at memberA shrinks'
      rw [if_neg (by omega)] at memberA
      by_cases top : pos = start
      · rw [same] at behind
        omega
      · exact holed.across top c positive child a memberA chosen found
    · rename_i same
      split at memberA
      · rename_i above
        cases memberA
        exact first i positive' above b memberB
      · rename_i above
        exact holed.apart i positive' behind same above a memberA b memberB
  · intro _ i positive' below a memberA b memberB
    have shrinks' := parentPos_lt positive'
    rw [child, read, if_pos rfl] at memberA
    cases memberA
    rw [read, if_neg (by omega)] at memberB
    have low := holed.under.le
    exact holed.apart i positive' (by omega) (by omega) (by omega) chosen (below ▸ found) b memberB
  · rw [length_set]
    exact (List.getElem?_eq_some_iff.mp found).1

/-- The hole has reached a leaf, and nothing but the hole has moved. -/
structure Sunk (less : Item → Item → Bool) (start : Nat) (heap : List Item) (pos : Nat)
    (result : List Item × Nat) : Prop where
  holed : Holed less start result.2 result.1
  leaf : result.1.length ≤ 2 * result.2 + 1
  perm : ∀ item, (result.1.set result.2 item).Perm (heap.set pos item)

theorem Holed.sunk {chosen : Item} {c : Nat} {result : List Item × Nat} (holed : Holed less start pos heap)
    (positive : 0 < c) (child : parentPos c = pos) (found : heap[c]? = some chosen)
    (first : ∀ i, 0 < i → parentPos i = pos → ∀ b ∈ heap[i]?, less b chosen = false)
    (rest : Holed less start c (heap.set pos chosen) → Sunk less start (heap.set pos chosen) c result) :
    Sunk less start heap pos result := by
  have shrinks := parentPos_lt positive
  obtain ⟨holed', leaf, perm⟩ := rest (holed.sink positive child found first)
  exact ⟨holed', leaf, fun item => (perm item).trans (move_perm holed.within (by omega) found)⟩

theorem sinkHole_spec (order : StrictWeak less) (holed : Holed less start pos heap) :
    Sunk less start heap pos (sinkHole less heap pos) := by
  induction heap, pos using sinkHole.induct less with
  | case1 heap pos within left right foundRight foundLeft smaller ih =>
    rw [sinkHole, dif_pos within, foundLeft, foundRight]
    dsimp only
    rw [if_pos smaller]
    apply holed.sunk (by omega) (parentPos_children pos).1 foundLeft _ ih
    intro i positive child b member
    rcases child_cases positive child with rfl | rfl
    · rw [foundLeft] at member
      cases member
      exact order.irrefl left
    · rw [foundRight] at member
      cases member
      exact order.asymm left right smaller
  | case2 heap pos within left right foundRight foundLeft larger ih =>
    rw [sinkHole, dif_pos within, foundLeft, foundRight]
    dsimp only
    rw [if_neg larger]
    apply holed.sunk (by omega) (parentPos_children pos).2 foundRight _ ih
    intro i positive child b member
    rcases child_cases positive child with rfl | rfl
    · rw [foundLeft] at member
      cases member
      simpa using larger
    · rw [foundRight] at member
      cases member
      exact order.irrefl right
  | case3 heap pos within left foundRight foundLeft ih =>
    rw [sinkHole, dif_pos within, foundLeft, foundRight]
    apply holed.sunk (by omega) (parentPos_children pos).1 foundLeft _ ih
    intro i positive child b member
    rcases child_cases positive child with rfl | rfl
    · rw [foundLeft] at member
      cases member
      exact order.irrefl left
    · rw [foundRight] at member
      cases member
  | case4 heap pos within foundLeft =>
    rw [List.getElem?_eq_none_iff] at foundLeft
    omega
  | case5 heap pos outside =>
    rw [sinkHole, dif_neg outside]
    exact ⟨holed, by dsimp only; omega, fun _ => Perm.refl _⟩

theorem siftUp_spec (order : StrictWeak less) (ordered : OrderedFrom less (pos + 1) heap)
    (within : pos < heap.length) :
    OrderedFrom less pos (siftUp less heap pos) ∧ (siftUp less heap pos).Perm heap := by
  have found := getElem?_eq_getElem within
  have holed : Holed less pos pos heap :=
    ⟨fun i positive behind _ other => ordered i positive (by omega), fun other => absurd rfl other, .root, within⟩
  obtain ⟨holed', leaf, perm⟩ := sinkHole_spec order holed
  rw [siftUp, found]
  obtain ⟨ordered, perm'⟩ := siftDown_spec order heap[pos] holed' fun i positive child b member => by
    have within' := (List.getElem?_eq_some_iff.mp member).1
    rcases child_cases positive child with rfl | rfl
    · omega
    · omega
  refine ⟨ordered, perm'.trans ((perm _).trans ?_)⟩
  rw [set_getElem_self]

end Holes

section Operations
variable {less : Item → Item → Bool} {heap : List Item}

/-- The root comes before every item. -/
theorem root_before (order : StrictWeak less) (ordered : Ordered less heap) (i : Nat) :
    Before less heap 0 i := by
  induction i using Nat.strongRecOn with
  | ind i ih =>
    intro a memberA b memberB
    by_cases positive : 0 < i
    · have shrinks := parentPos_lt positive
      have within := (List.getElem?_eq_some_iff.mp memberB).1
      have inside : parentPos i < heap.length := by omega
      have found := getElem?_eq_getElem inside
      exact order.trans a _ b (ih _ shrinks a memberA _ found)
        (ordered i positive (Nat.zero_le _) _ found b memberB)
    · have zero : i = 0 := by omega
      rw [zero, Option.mem_def.mp memberA] at memberB
      cases memberB
      exact order.irrefl a

theorem head_before (order : StrictWeak less) (ordered : Ordered less heap) {first item : Item}
    (front : heap[0]? = some first) (member : item ∈ heap) : less item first = false := by
  obtain ⟨i, found⟩ := mem_iff_getElem?.mp member
  exact root_before order ordered i first front item found

theorem heappush_spec (order : StrictWeak less) (ordered : Ordered less heap) (item : Item) :
    Ordered less (heappush less heap item) ∧ (heappush less heap item).Perm (heap ++ [item]) := by
  have holed : Holed less 0 heap.length (heap ++ [item]) := by
    refine ⟨?_, ?_, under_zero _, by simp⟩
    · intro i positive behind other other' a memberA b memberB
      have within := (List.getElem?_eq_some_iff.mp memberB).1
      have shrinks := parentPos_lt positive
      rw [length_append, length_singleton] at within
      rw [getElem?_append_left (by omega)] at memberA memberB
      exact ordered i positive behind a memberA b memberB
    · intro _ i positive child a _ b memberB
      have within := (List.getElem?_eq_some_iff.mp memberB).1
      rw [length_append, length_singleton] at within
      rcases child_cases positive child with rfl | rfl
      · omega
      · omega
  obtain ⟨ordered', perm⟩ := siftDown_spec order item holed fun i positive child b member => by
    have within := (List.getElem?_eq_some_iff.mp member).1
    rw [length_append, length_singleton] at within
    rcases child_cases positive child with rfl | rfl
    · omega
    · omega
  refine ⟨ordered', perm.trans ?_⟩
  rw [set_append_right _ _ (Nat.le_refl _), Nat.sub_self]
  exact Perm.refl _

/-- A prefix of a heap with another root. -/
theorem ordered_replace {first lastItem : Item} {rest : List Item}
    (ordered : Ordered less ((first :: rest) ++ [lastItem])) : OrderedFrom less 1 (lastItem :: rest) := by
  intro i positive behind a memberA b memberB
  have agree (j : Nat) (positive : 0 < j) (item : Item) (member : item ∈ (lastItem :: rest)[j]?) :
      item ∈ ((first :: rest) ++ [lastItem])[j]? := by
    obtain ⟨j, rfl⟩ := Nat.exists_eq_succ_of_ne_zero (Nat.ne_of_gt positive)
    have within := (List.getElem?_eq_some_iff.mp member).1
    rw [getElem?_append_left (by simpa using within)]
    exact member
  exact ordered i positive (Nat.zero_le _) a (agree _ (by omega) a memberA) b (agree _ positive b memberB)

theorem heappop_concat (less : Item → Item → Bool) (before : List Item) (lastItem : Item) :
    heappop less (before ++ [lastItem]) = match before with
      | [] => some (lastItem, [])
      | first :: rest => some (first, siftUp less (lastItem :: rest) 0) := by
  rw [heappop, getLast?_concat, dropLast_concat]
  cases before with
  | nil => rfl
  | cons first rest => rfl

section
variable (order : StrictWeak less)
include order

theorem heappop_spec (ordered : Ordered less heap) {first : Item}
    {tail : List Item} (front : heap = first :: tail) :
    ∃ rest, heappop less heap = some (first, rest) ∧ Ordered less rest ∧ rest.Perm tail := by
  obtain ⟨before, lastItem, parts⟩ : ∃ before lastItem, heap = before ++ [lastItem] := by
    have proper : heap ≠ [] := by simp [front]
    exact ⟨_, _, (dropLast_append_getLast proper).symm⟩
  have popped := heappop_concat less before lastItem
  rw [← parts] at popped
  cases before with
  | nil =>
    rw [parts] at front
    cases front
    refine ⟨[], popped, ?_, Perm.refl _⟩
    intro i _ _ a memberA
    cases memberA
  | cons head rest =>
    rw [parts] at ordered front
    obtain ⟨rfl, rfl⟩ := cons.inj front
    obtain ⟨ordered', perm⟩ := siftUp_spec order (ordered_replace ordered) (by simp)
    exact ⟨_, popped, ordered', perm.trans (perm_append_singleton _ _).symm⟩

theorem heapify_spec (heap : List Item) :
    Ordered less (heapify less heap) ∧ (heapify less heap).Perm heap := by
  -- Sifting the positions below `count` in turn, from the last one.
  have sifted (count : Nat) (heap : List Item) (within : count ≤ heap.length)
      (ordered : OrderedFrom less count heap) :
      Ordered less ((range count).foldr (fun pos heap => siftUp less heap pos) heap) ∧
        ((range count).foldr (fun pos heap => siftUp less heap pos) heap).Perm heap := by
    induction count generalizing heap with
    | zero => exact ⟨ordered, Perm.refl _⟩
    | succ count ih =>
      obtain ⟨ordered', perm⟩ := siftUp_spec order ordered within
      rw [range_succ, foldr_append]
      obtain ⟨ordered'', perm'⟩ := ih (siftUp less heap count)
        (by rw [perm.length_eq]; omega) ordered'
      exact ⟨ordered'', perm'.trans perm⟩
  apply sifted _ _ (Nat.div_le_self _ _)
  intro i positive behind a _ b memberB
  have within := (List.getElem?_eq_some_iff.mp memberB).1
  rw [parentPos] at behind
  omega

theorem popAll_spec (count : Nat) (ordered : Ordered less heap) (enough : heap.length ≤ count) :
    (popAll less count heap).Perm heap ∧
      (popAll less count heap).Pairwise fun earlier later => less later earlier = false := by
  induction count generalizing heap with
  | zero =>
    rw [length_eq_zero_iff.mp (Nat.le_zero.mp enough)]
    exact ⟨Perm.refl _, List.Pairwise.nil⟩
  | succ count ih =>
    cases heap with
    | nil => exact ⟨Perm.refl _, List.Pairwise.nil⟩
    | cons first tail =>
      obtain ⟨rest, popped, ordered', perm⟩ := heappop_spec order ordered rfl
      rw [length_cons] at enough
      obtain ⟨perm', sorted⟩ := ih ordered' (by rw [perm.length_eq]; omega)
      rw [popAll, popped]
      refine ⟨(perm'.trans perm).cons first, pairwise_cons.mpr ⟨?_, sorted⟩⟩
      intro item member
      have inside : item ∈ first :: tail := mem_cons_of_mem _ ((perm'.trans perm).mem_iff.mp member)
      exact head_before order ordered rfl inside

theorem iterate_spec (ordered : Ordered less heap) :
    (iterate less heap).Perm heap ∧
      (iterate less heap).Pairwise fun earlier later => less later earlier = false :=
  popAll_spec order heap.length ordered (Nat.le_refl _)

end

end Operations

example : iterate (fun a b : Nat => decide (a < b)) (heapify (fun a b => decide (a < b)) [5, 3, 9, 1, 4, 1]) =
    [1, 1, 3, 4, 5, 9] := by decide +kernel

end VllmDcu.HeapQueue

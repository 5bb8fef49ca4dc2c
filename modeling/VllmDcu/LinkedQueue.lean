import Mathlib.Data.List.Chain
import Mathlib.Data.List.Nodup

/-! Doubly linked lists between a fake head and a fake tail. `Represents q l`
says that the links spell exactly the list `l`, that neighbouring links are
mutually inverse and that every other element is detached. Each relinking rule
below is one splice of the node path; queues built on these links use the rules
by name and never look at single pointers again. -/
namespace VllmDcu.LinkedQueue
open List Option Function

variable {Elem : Type}

inductive Node (Elem : Type) where
  | head
  | tail
  | item (elem : Elem)
  deriving DecidableEq

structure Links (Elem : Type) where
  prev : Node Elem → Option (Node Elem)
  next : Node Elem → Option (Node Elem)

def Linked (q : Links Elem) (left right : Node Elem) : Prop :=
  q.next left = some right ∧ q.prev right = some left

def path (l : List Elem) : List (Node Elem) := Node.head :: (l.map Node.item ++ [Node.tail])

/-- The node a traversal meets first when only `l` is left before the tail. -/
def firstNode (l : List Elem) : Node Elem := (l.map Node.item).headD Node.tail

def lastNode (l : List Elem) : Node Elem := (l.map Node.item).getLastD Node.head

structure Represents (q : Links Elem) (l : List Elem) : Prop where
  distinct : l.Nodup
  chain : (path l).IsChain (Linked q)
  detached : ∀ elem, elem ∉ l → q.prev (.item elem) = none ∧ q.next (.item elem) = none
  headPrev : q.prev .head = none
  tailNext : q.next .tail = none

theorem path_nodup (l : List Elem) (distinct : l.Nodup) : (path l).Nodup := by
  have items : (l.map Node.item).Nodup := distinct.map fun _ _ same => by simpa using same
  simp [path, nodup_append, items]

theorem items_split {l : List Elem} :
    ∃ rest, l.map Node.item ++ [Node.tail] = firstNode l :: rest := by
  cases l with
  | nil => exact ⟨[], rfl⟩
  | cons elem rest => exact ⟨rest.map Node.item ++ [Node.tail], rfl⟩

theorem heads_split {l : List Elem} :
    ∃ init, Node.head :: l.map Node.item = init ++ [lastNode l] := by
  rcases eq_nil_or_concat l with rfl | ⟨init, elem, rfl⟩
  · exact ⟨[], rfl⟩
  · exact ⟨Node.head :: init.map Node.item, by simp [lastNode]⟩

/-- Only the `next` of non-last nodes and the `prev` of non-first nodes matter
to a chain. -/
theorem chain_congr {q q' : Links Elem} {nodes : List (Node Elem)}
    (chain : nodes.IsChain (Linked q))
    (nexts : ∀ node ∈ nodes.dropLast, q'.next node = q.next node)
    (prevs : ∀ node ∈ nodes.tail, q'.prev node = q.prev node) :
    nodes.IsChain (Linked q') := by
  induction nodes with
  | nil => exact List.IsChain.nil
  | cons left rest ih =>
    cases rest with
    | nil => exact List.IsChain.singleton left
    | cons right rest =>
      rw [isChain_cons_cons] at chain ⊢
      refine ⟨⟨?_, ?_⟩, ih chain.2 (fun node member => nexts node (by simp [member]))
        (fun node member => prevs node (by
          simpa using Or.inr (by simpa using member)))⟩
      · rw [nexts left (by simp)]
        exact chain.1.1
      · rw [prevs right (by simp)]
        exact chain.1.2

/-- Joining two chains whose only changed pointers are the ones at the seam. -/
theorem chain_splice {q q' : Links Elem} (init rest : List (Node Elem)) {left right : Node Elem}
    (before : (init ++ [left]).IsChain (Linked q)) (after : (right :: rest).IsChain (Linked q))
    (nexts : ∀ node, node ∈ init ∨ node ∈ (right :: rest).dropLast → q'.next node = q.next node)
    (prevs : ∀ node, node ∈ (init ++ [left]).tail ∨ node ∈ rest → q'.prev node = q.prev node)
    (seam : Linked q' left right) : (init ++ left :: right :: rest).IsChain (Linked q') := by
  have first := chain_congr before (fun node member => nexts node (Or.inl (by simpa using member)))
    (fun node member => prevs node (Or.inl member))
  have second := chain_congr after (fun node member => nexts node (Or.inr member))
    (fun node member => prevs node (Or.inr member))
  have joined : (init ++ [left] ++ right :: rest).IsChain (Linked q') := by
    rw [isChain_append]
    refine ⟨first, second, ?_⟩
    simpa using seam
  simpa using joined

section
variable (q : Links Elem)
include q

theorem next_head (l : List Elem) (rep : Represents q l) : q.next .head = some (firstNode l) := by
  obtain ⟨rest, split⟩ := items_split
  have chain := rep.chain
  rw [path, split, isChain_cons_cons] at chain
  exact chain.1.1

theorem prev_tail (l : List Elem) (rep : Represents q l) : q.prev .tail = some (lastNode l) := by
  obtain ⟨init, split⟩ := heads_split
  have chain := rep.chain
  rw [path, ← cons_append, split] at chain
  have seam := (isChain_append.mp chain).2.2 (lastNode l) (by simp) Node.tail (by simp)
  exact seam.2

theorem linked_neighbours {before after : List Elem} {elem : Elem}
    (rep : Represents q (before ++ elem :: after)) :
    Linked q (lastNode before) (.item elem) ∧ Linked q (.item elem) (firstNode after) := by
  obtain ⟨init, left⟩ := heads_split
  obtain ⟨rest, right⟩ := items_split
  have chain := rep.chain
  have shape : path (before ++ elem :: after) =
      (init ++ [lastNode before]) ++ Node.item elem :: firstNode after :: rest := by
    rw [← left, ← right]
    simp [path]
  rw [shape, isChain_append] at chain
  have seam := chain.2.2 (lastNode before) (by simp) (Node.item elem) (by simp)
  exact ⟨seam, (isChain_cons_cons.mp chain.2.1).1⟩

theorem neighbours (before after : List Elem) (elem : Elem)
    (rep : Represents q (before ++ elem :: after)) :
    q.prev (.item elem) = some (lastNode before) ∧ q.next (.item elem) = some (firstNode after) := by
  obtain ⟨left, right⟩ := linked_neighbours q rep
  exact ⟨left.2, right.1⟩

/-- The two links of a node undo each other, at the fake ends too. -/
theorem next_iff_prev (l : List Elem) (rep : Represents q l)
    (left right : Node Elem) : q.next left = some right ↔ q.prev right = some left := by
  constructor
  · intro next
    cases left with
    | head =>
      obtain ⟨rest, split⟩ := items_split
      have chain := rep.chain
      rw [path, split, isChain_cons_cons] at chain
      obtain rfl := some.inj (chain.1.1.symm.trans next)
      exact chain.1.2
    | tail =>
      rw [rep.tailNext] at next
      contradiction
    | item elem =>
      by_cases member : elem ∈ l
      · obtain ⟨before, after, rfl⟩ := append_of_mem member
        have linked := (linked_neighbours q rep).2
        obtain rfl := some.inj (linked.1.symm.trans next)
        exact linked.2
      · rw [(rep.detached elem member).2] at next
        contradiction
  · intro prev
    cases right with
    | head =>
      rw [rep.headPrev] at prev
      contradiction
    | tail =>
      obtain ⟨init, split⟩ := heads_split
      have chain := rep.chain
      rw [path, ← cons_append, split] at chain
      have seam := (isChain_append.mp chain).2.2 (lastNode l) (by simp) Node.tail (by simp)
      obtain rfl := some.inj (seam.2.symm.trans prev)
      exact seam.1
    | item elem =>
      by_cases member : elem ∈ l
      · obtain ⟨before, after, rfl⟩ := append_of_mem member
        have linked := (linked_neighbours q rep).1
        obtain rfl := some.inj (linked.2.symm.trans prev)
        exact linked.1
      · rw [(rep.detached elem member).1] at prev
        contradiction

end

section
variable (l : List Elem)
include l

theorem item_mem_path {elem : Elem} :
    (Node.item elem ∈ Node.head :: l.map Node.item ↔ elem ∈ l) ∧
      (Node.item elem ∈ l.map Node.item ++ [Node.tail] ↔ elem ∈ l) := by
  simp

theorem lastNode_mem : lastNode l ∈ Node.head :: l.map Node.item := by
  obtain ⟨init, split⟩ := heads_split
  rw [split]
  simp

theorem firstNode_mem : firstNode l ∈ l.map Node.item ++ [Node.tail] := by
  obtain ⟨rest, split⟩ := items_split
  rw [split]
  simp

theorem lastNode_ne_tail : lastNode l ≠ Node.tail := by
  intro same
  have member := lastNode_mem l
  rw [same] at member
  simp at member

theorem firstNode_ne_head : firstNode l ≠ Node.head := by
  intro same
  have member := firstNode_mem l
  rw [same] at member
  simp at member

theorem lastNode_ne_item {elem : Elem} (absent : elem ∉ l) : lastNode l ≠ .item elem := fun same =>
  absent ((item_mem_path l).1.mp (same ▸ lastNode_mem l))

theorem firstNode_ne_item (elem : Elem) (absent : elem ∉ l) :
    firstNode l ≠ .item elem := fun same =>
  absent ((item_mem_path l).2.mp (same ▸ firstNode_mem l))

end

theorem nodup_middle {before after : List Elem} {elem : Elem}
    (distinct : (before ++ elem :: after).Nodup) :
    elem ∉ before ∧ elem ∉ after ∧ (before ++ after).Nodup := by
  have moved := List.nodup_middle.mp distinct
  rw [nodup_cons, mem_append, not_or] at moved
  exact ⟨moved.1.1, moved.1.2, moved.2⟩

variable [DecidableEq Elem]

def Links.setPrev (q : Links Elem) (node : Node Elem) (target : Option (Node Elem)) : Links Elem :=
  { q with prev := Function.update q.prev node target }

def Links.setNext (q : Links Elem) (node : Node Elem) (target : Option (Node Elem)) : Links Elem :=
  { q with next := Function.update q.next node target }

variable (q : Links Elem) (node : Node Elem)

@[simp] theorem setPrev_prev (other : Node Elem) (target : Option (Node Elem)) :
    (q.setPrev node target).prev other = if other = node then target else q.prev other := by
  simp [Links.setPrev, update_apply]

@[simp] theorem setPrev_next (target : Option (Node Elem)) :
    (q.setPrev node target).next = q.next := rfl

@[simp] theorem setNext_next (other : Node Elem) (target : Option (Node Elem)) :
    (q.setNext node target).next other = if other = node then target else q.next other := by
  simp [Links.setNext, update_apply]

@[simp] theorem setNext_prev (target : Option (Node Elem)) :
    (q.setNext node target).prev = q.prev := rfl

/-- Both links of `left` and `right` at their common seam. -/
def Links.connect (q : Links Elem) (left right : Node Elem) : Links Elem :=
  (q.setNext left (some right)).setPrev right (some left)

def Links.detach (q : Links Elem) (elem : Elem) : Links Elem :=
  (q.setPrev (.item elem) none).setNext (.item elem) none

/-- Unlinking one element joins its neighbours. -/
theorem represents_remove (before after : List Elem) (elem : Elem)
    (rep : Represents q (before ++ elem :: after)) :
    Represents ((q.connect (lastNode before) (firstNode after)).detach elem) (before ++ after) := by
  obtain ⟨init, left⟩ := heads_split
  obtain ⟨rest, right⟩ := items_split
  obtain ⟨notBefore, notAfter, distinct⟩ := nodup_middle rep.distinct
  have joined : path (before ++ after) = init ++ lastNode before :: firstNode after :: rest := by
    have : path (before ++ after) =
        (Node.head :: before.map Node.item) ++ (after.map Node.item ++ [Node.tail]) := by
      simp [path]
    rw [this, left, right]
    simp
  have shape : path (before ++ elem :: after) =
      (init ++ [lastNode before]) ++ Node.item elem :: firstNode after :: rest := by
    rw [← left, ← right]
    simp [path]
  have chain := rep.chain
  rw [shape, isChain_append] at chain
  have unique := path_nodup _ distinct
  rw [joined, nodup_append] at unique
  simp only [nodup_cons, mem_cons, not_or] at unique
  have leftClear : ∀ node ∈ init ++ [lastNode before], node ≠ .item elem := by
    rintro _ member rfl
    exact notBefore ((item_mem_path before).1.mp (left ▸ member))
  have rightClear : ∀ node ∈ firstNode after :: rest, node ≠ .item elem := by
    rintro _ member rfl
    exact notAfter ((item_mem_path after).2.mp (right ▸ member))
  refine ⟨distinct, ?_, ?_, ?_, ?_⟩
  · rw [joined]
    refine chain_splice init rest chain.1 (isChain_cons_cons.mp chain.2.1).2 ?_ ?_ ?_
    · rintro node (member | member)
      · have notLast : node ≠ lastNode before := unique.2.2 node member _ (Or.inl rfl)
        simp [Links.detach, Links.connect, leftClear node (by simp [member]), notLast]
      · have inside := dropLast_subset _ member
        have notLast : node ≠ lastNode before := by
          rintro rfl
          exact (not_or.mpr unique.2.1.1) (mem_cons.mp inside)
        simp [Links.detach, Links.connect, rightClear node inside, notLast]
    · rintro node (member | member)
      · have inside := mem_of_mem_tail member
        have notFirst : node ≠ firstNode after := by
          rintro rfl
          rcases mem_append.mp inside with inInit | same
          · exact unique.2.2 _ inInit _ (Or.inr (Or.inl rfl)) rfl
          · exact unique.2.1.1.1 (mem_singleton.mp same).symm
        simp [Links.detach, Links.connect, leftClear node inside, notFirst]
      · have notFirst : node ≠ firstNode after := by
          rintro rfl
          exact unique.2.1.2.1 member
        simp [Links.detach, Links.connect, rightClear node (by simp [member]), notFirst]
    · simp [Linked, Links.detach, Links.connect, lastNode_ne_item before notBefore,
        firstNode_ne_item after elem notAfter]
  · intro other outside
    rw [mem_append, not_or] at outside
    by_cases same : other = elem
    · simp [Links.detach, same]
    · have old := rep.detached other (by simp [outside, same])
      simp [Links.detach, Links.connect, same, old, (lastNode_ne_item before outside.1).symm,
        (firstNode_ne_item after other outside.2).symm]
  · simp [Links.detach, Links.connect, (firstNode_ne_head after).symm, rep.headPrev]
  · simp [Links.detach, Links.connect, (lastNode_ne_tail before).symm, rep.tailNext]

/-- What is left of a represented list while its front is being taken off: the
head still points at an element that is already gone. -/
structure Suffix (q : Links Elem) (l : List Elem) : Prop where
  distinct : l.Nodup
  chain : (l.map Node.item ++ [Node.tail]).IsChain (Linked q)
  detached : ∀ elem, elem ∉ l → q.prev (.item elem) = none ∧ q.next (.item elem) = none
  headPrev : q.prev .head = none
  tailNext : q.next .tail = none

variable (l : List Elem)

omit [DecidableEq Elem] in
theorem suffix_of_represents (rep : Represents q l) : Suffix q l := by
  obtain ⟨rest, split⟩ := items_split
  have chain := rep.chain
  rw [path, split, isChain_cons_cons] at chain
  exact ⟨rep.distinct, split ▸ chain.2, rep.detached, rep.headPrev, rep.tailNext⟩

theorem suffix_pop (elem : Elem) (l : List Elem) (rep : Suffix q (elem :: l)) :
    q.next (.item elem) = some (firstNode l) ∧ Suffix (q.detach elem) l := by
  obtain ⟨rest, split⟩ := items_split
  obtain ⟨absent, distinct⟩ := nodup_cons.mp rep.distinct
  have chain := rep.chain
  rw [map_cons, cons_append, split, isChain_cons_cons] at chain
  refine ⟨chain.1.1, distinct, ?_, ?_, ?_, ?_⟩
  · rw [split]
    have clear : ∀ node ∈ firstNode l :: rest, node ≠ .item elem := by
      rintro _ member rfl
      exact absent ((item_mem_path l).2.mp (split ▸ member))
    refine chain_congr chain.2 ?_ ?_
    · intro node member
      simp [Links.detach, clear node (dropLast_subset _ member)]
    · intro node member
      simp [Links.detach, clear node (mem_of_mem_tail member)]
  · intro other outside
    by_cases same : other = elem
    · simp [Links.detach, same]
    · simpa [Links.detach, same] using rep.detached other (by simp [same, outside])
  · simpa [Links.detach] using rep.headPrev
  · simpa [Links.detach] using rep.tailNext

theorem suffix_close (rep : Suffix q l) : Represents (q.connect .head (firstNode l)) l := by
  obtain ⟨rest, split⟩ := items_split
  have unique := path_nodup l rep.distinct
  have chain := rep.chain
  rw [split] at chain
  rw [path, split] at unique
  simp only [nodup_cons, mem_cons, not_or] at unique
  refine ⟨rep.distinct, ?_, ?_, ?_, ?_⟩
  · rw [path, split]
    refine chain_splice [] rest (List.IsChain.singleton _) chain ?_ ?_ ?_
    · rintro node (member | member)
      · simp at member
      · have notHead : node ≠ .head := by
          rintro rfl
          exact (not_or.mpr unique.1) (mem_cons.mp (dropLast_subset _ member))
        simp [Links.connect, notHead]
    · rintro node (member | member)
      · simp at member
      · have notFirst : node ≠ firstNode l := by
          rintro rfl
          exact unique.2.1 member
        simp [Links.connect, notFirst]
    · simp [Linked, Links.connect]
  · intro other outside
    simpa [Links.connect, (firstNode_ne_item l other outside).symm] using rep.detached other outside
  · simp [Links.connect, (firstNode_ne_head l).symm, rep.headPrev]
  · simp [Links.connect, rep.tailNext]

/-- What is built so far while elements are added at the back: the tail still
points at the old last node. -/
structure Prefix (q : Links Elem) (l : List Elem) : Prop where
  distinct : l.Nodup
  chain : (Node.head :: l.map Node.item).IsChain (Linked q)
  detached : ∀ elem, elem ∉ l → q.prev (.item elem) = none ∧ q.next (.item elem) = none
  headPrev : q.prev .head = none
  tailNext : q.next .tail = none

omit [DecidableEq Elem] in
theorem prefix_of_represents (rep : Represents q l) : Prefix q l := by
  have chain := rep.chain
  exact ⟨rep.distinct, (isChain_append.mp chain).1, rep.detached, rep.headPrev, rep.tailNext⟩

theorem prefix_push (elem : Elem) (absent : elem ∉ l) (rep : Prefix q l) :
    Prefix ((q.setPrev (.item elem) (some (lastNode l))).setNext (lastNode l) (some (.item elem)))
      (l ++ [elem]) := by
  obtain ⟨init, split⟩ := heads_split
  have unique : (Node.head :: l.map Node.item).Nodup :=
    (path_nodup l rep.distinct).sublist (by simp [path])
  rw [split, nodup_append] at unique
  have chain := rep.chain
  rw [split] at chain
  have clear : ∀ node ∈ init ++ [lastNode l], node ≠ .item elem := by
    rintro _ member rfl
    exact absent ((item_mem_path l).1.mp (split ▸ member))
  refine ⟨?_, ?_, ?_, ?_, ?_⟩
  · simp [nodup_append, rep.distinct]
    rintro other member rfl
    exact absent member
  · have shape : Node.head :: (l ++ [elem]).map Node.item = init ++ lastNode l :: [.item elem] := by
      rw [map_append, ← cons_append, split]
      simp
    rw [shape]
    refine chain_splice init [] chain (List.IsChain.singleton _) ?_ ?_ ?_
    · rintro node (member | member)
      · have notLast : node ≠ lastNode l := unique.2.2 node member _ (by simp)
        simp [notLast]
      · simp at member
    · rintro node (member | member)
      · simp [clear node (mem_of_mem_tail member)]
      · simp at member
    · simp [Linked]
  · intro other outside
    simp only [mem_append, mem_singleton, not_or] at outside
    simpa [outside.2, (lastNode_ne_item l outside.1).symm] using rep.detached other outside.1
  · simp [rep.headPrev]
  · simp [(lastNode_ne_tail l).symm, rep.tailNext]

theorem prefix_close (rep : Prefix q l) :
    Represents ((q.setNext (lastNode l) (some .tail)).setPrev .tail (some (lastNode l))) l := by
  obtain ⟨init, split⟩ := heads_split
  have unique := path_nodup l rep.distinct
  have chain := rep.chain
  rw [split] at chain
  rw [path, ← cons_append, split, nodup_append] at unique
  have uniqueLeft := nodup_append.mp unique.1
  refine ⟨rep.distinct, ?_, ?_, ?_, ?_⟩
  · have shape : path l = init ++ lastNode l :: [.tail] := by
      rw [path, ← cons_append, split]
      simp
    rw [shape]
    refine chain_splice init [] chain (List.IsChain.singleton _) ?_ ?_ ?_
    · rintro node (member | member)
      · have notLast : node ≠ lastNode l := uniqueLeft.2.2 node member _ (by simp)
        simp [notLast]
      · simp at member
    · rintro node (member | member)
      · have notTail : node ≠ .tail := unique.2.2 node (mem_of_mem_tail member) _ (by simp)
        simp [notTail]
      · simp at member
    · simp [Linked]
  · intro other outside
    simpa [(lastNode_ne_item l outside).symm] using rep.detached other outside
  · simp [rep.headPrev]
  · simp [(lastNode_ne_tail l).symm, rep.tailNext]

end VllmDcu.LinkedQueue

import VllmDcu.LinkedQueue
import Mathlib.Data.List.Range

/-! `FreeKVCacheBlockQueue`: the free blocks in eviction order, linked through
the blocks themselves. Failed assertions and raised errors are `none`. Every
operation is stated on the links and proved to be the list operation it means. -/
namespace VllmDcu.FreeBlockQueue
open LinkedQueue List Option

abbrev BlockId := Nat

structure FreeQueue where
  links : Links BlockId
  numFreeBlocks : Int

/-- The links after the constructor's loop over `num_gpu_blocks` blocks. -/
def initLinks (numBlocks : Nat) : Links BlockId where
  prev
    | .head => none
    | .tail => some (if numBlocks = 0 then .head else .item (numBlocks - 1))
    | .item b => if b < numBlocks then some (if b = 0 then .head else .item (b - 1)) else none
  next
    | .head => some (if numBlocks = 0 then .tail else .item 0)
    | .tail => none
    | .item b => if b < numBlocks then some (if b + 1 = numBlocks then .tail else .item (b + 1)) else none

namespace FreeQueue

def init (numBlocks : Nat) : FreeQueue := ⟨initLinks numBlocks, numBlocks⟩

def popleft (queue : FreeQueue) : Option (BlockId × FreeQueue) :=
  match queue.links.next .head with
  | some (.item firstBlock) =>
    match queue.links.next (.item firstBlock) with
    | none => none
    | some second =>
      some (firstBlock,
        ⟨(queue.links.connect .head second).detach firstBlock, queue.numFreeBlocks - 1⟩)
  | _ => none

/-- The loop of `popleft_n`: the popped blocks, the links, and the block that is
first now. -/
def popLoop : Nat → Links BlockId → Option (Node BlockId) →
    Option (List BlockId × Links BlockId × Option (Node BlockId))
  | 0, links, currBlock => some ([], links, currBlock)
  | n + 1, links, some (.item block) =>
    (popLoop n (links.detach block) (links.next (.item block))).map fun (ret, links, currBlock) =>
      (block :: ret, links, currBlock)
  | _ + 1, _, _ => none

def popleftN (queue : FreeQueue) (n : Int) : Option (List BlockId × FreeQueue) :=
  if n = 0 then some ([], queue)
  else if queue.numFreeBlocks < n then none
  else
    (popLoop n.toNat queue.links (queue.links.next .head)).map fun (ret, links, currBlock) =>
      let links :=
        match currBlock with
        | none => links
        | some node => links.connect .head node
      (ret, ⟨links, queue.numFreeBlocks - n⟩)

def remove (queue : FreeQueue) (block : BlockId) : Option FreeQueue :=
  match queue.links.prev (.item block), queue.links.next (.item block) with
  | some prev, some next =>
    some ⟨(queue.links.connect prev next).detach block, queue.numFreeBlocks - 1⟩
  | _, _ => none

/-- The loop of `append_n` over the blocks, with the last block so far. -/
def pushLoop : List BlockId → Links BlockId → Node BlockId → Links BlockId × Node BlockId
  | [], links, lastBlock => (links, lastBlock)
  | block :: rest, links, lastBlock =>
    pushLoop rest
      ((links.setPrev (.item block) (some lastBlock)).setNext lastBlock (some (.item block)))
      (.item block)

def appendN (queue : FreeQueue) (blocks : List BlockId) : Option FreeQueue :=
  if blocks = [] then some queue
  else
    match queue.links.prev .tail with
    | none => none
    | some lastBlock =>
      let pushed := pushLoop blocks queue.links lastBlock
      some ⟨(pushed.1.setNext pushed.2 (some .tail)).setPrev .tail (some pushed.2),
        queue.numFreeBlocks + blocks.length⟩

end FreeQueue

/-- The queue links exactly the blocks of `free`, and its counter counts them. -/
structure Holds (queue : FreeQueue) (free : List BlockId) : Prop where
  represents : Represents queue.links free
  count : queue.numFreeBlocks = free.length

/-- The links between the blocks from `first` on, up to the tail. -/
theorem initLinks_chain (numBlocks count first : Nat) (bound : first + count = numBlocks) :
    ((List.range' first count).map Node.item ++ [Node.tail]).IsChain (Linked (initLinks numBlocks)) := by
  induction count generalizing first with
  | zero => exact List.IsChain.singleton _
  | succ count ih =>
    cases count with
    | zero =>
      have last : first + 1 = numBlocks := by omega
      have some : numBlocks ≠ 0 := by omega
      refine isChain_cons_cons.mpr ⟨⟨?_, ?_⟩, List.IsChain.singleton _⟩
      · simp [initLinks, last, show first < numBlocks by omega]
      · simp [initLinks, some, show numBlocks - 1 = first by omega]
    | succ count =>
      refine isChain_cons_cons.mpr ⟨⟨?_, ?_⟩, ?_⟩
      · simp [initLinks, show first < numBlocks by omega, show first + 1 ≠ numBlocks by omega]
      · simp [initLinks, show first + 1 < numBlocks by omega]
      · have := ih (first + 1) (by omega)
        rwa [range'_succ] at this

theorem init_holds (numBlocks : Nat) : Holds (.init numBlocks) (List.range numBlocks) := by
  refine ⟨⟨nodup_range, ?_, ?_, rfl, rfl⟩, by simp [FreeQueue.init]⟩
  · have chain := initLinks_chain numBlocks numBlocks 0 (by omega)
    rw [← range_eq_range'] at chain
    cases numBlocks with
    | zero => exact isChain_cons_cons.mpr ⟨⟨rfl, rfl⟩, List.IsChain.singleton _⟩
    | succ count =>
      have shape : ∃ rest, (range (count + 1)).map Node.item ++ [Node.tail] =
          Node.item 0 :: rest := ⟨_, by rw [range_succ_eq_map]; rfl⟩
      obtain ⟨rest, split⟩ := shape
      rw [split] at chain
      rw [path, split]
      refine isChain_cons_cons.mpr ⟨⟨?_, ?_⟩, chain⟩
      · simp [FreeQueue.init, initLinks]
      · simp [FreeQueue.init, initLinks]
  · intro block absent
    have outside : ¬ block < numBlocks := by simpa using absent
    simp [FreeQueue.init, initLinks, outside]

variable (queue : FreeQueue)

theorem popleft_holds (block : BlockId) (free : List BlockId)
    (holds : Holds queue (block :: free)) :
    ∃ queue', queue.popleft = some (block, queue') ∧ Holds queue' free := by
  have first : queue.links.next .head = some (.item block) :=
    next_head queue.links _ holds.represents
  have second := (neighbours queue.links [] free block holds.represents).2
  refine ⟨⟨(queue.links.connect .head (firstNode free)).detach block, queue.numFreeBlocks - 1⟩,
    by simp only [FreeQueue.popleft, first, second], ?_, ?_⟩
  · exact represents_remove queue.links [] free block holds.represents
  · simp [holds.count]

theorem popLoop_suffix (n : Nat) (links : Links BlockId) (free : List BlockId)
    (enough : n ≤ free.length) (suffix : Suffix links free) :
    ∃ links', FreeQueue.popLoop n links (some (firstNode free)) =
        some (free.take n, links', some (firstNode (free.drop n))) ∧
      Suffix links' (free.drop n) := by
  induction n generalizing links free with
  | zero => exact ⟨links, by simp [FreeQueue.popLoop], by simpa using suffix⟩
  | succ n ih =>
    cases free with
    | nil => simp at enough
    | cons block rest =>
      obtain ⟨next, popped⟩ := suffix_pop links block rest suffix
      obtain ⟨links', result, suffix'⟩ := ih _ rest (by simpa using enough) popped
      refine ⟨links', ?_, by simpa using suffix'⟩
      have first : firstNode (block :: rest) = .item block := rfl
      simp only [first, FreeQueue.popLoop, next, result, map_some, take_succ_cons, drop_succ_cons]

theorem popleftN_holds {n : Nat} {free : List BlockId} (enough : n ≤ free.length)
    (holds : Holds queue free) :
    ∃ queue', queue.popleftN n = some (free.take n, queue') ∧ Holds queue' (free.drop n) := by
  by_cases zero : n = 0
  · subst zero
    exact ⟨queue, by simp [FreeQueue.popleftN], by simpa using holds⟩
  · obtain ⟨links, popped, suffix⟩ := popLoop_suffix n queue.links free enough
      (suffix_of_represents _ _ holds.represents)
    have first := next_head queue.links free holds.represents
    have counted : ¬ queue.numFreeBlocks < (n : Int) := by
      rw [holds.count]
      omega
    refine ⟨⟨links.connect .head (firstNode (free.drop n)), queue.numFreeBlocks - n⟩, ?_,
      suffix_close links _ suffix, ?_⟩
    · simp only [FreeQueue.popleftN, Int.natCast_eq_zero, zero, counted, ↓reduceIte, first,
        Int.toNat_natCast, popped, map_some]
    · simp only [holds.count, length_drop]
      omega

theorem remove_holds {before after : List BlockId} {block : BlockId}
    (holds : Holds queue (before ++ block :: after)) :
    ∃ queue', queue.remove block = some queue' ∧ Holds queue' (before ++ after) := by
  obtain ⟨prev, next⟩ := neighbours queue.links before after block holds.represents
  refine ⟨⟨(queue.links.connect (lastNode before) (firstNode after)).detach block,
    queue.numFreeBlocks - 1⟩, by simp only [FreeQueue.remove, prev, next], ?_, ?_⟩
  · exact represents_remove queue.links before after block holds.represents
  · simp only [holds.count, length_append, length_cons]
    omega

theorem lastNode_concat (free : List BlockId) (block : BlockId) :
    lastNode (free ++ [block]) = .item block := by
  simp [lastNode]

theorem pushLoop_prefix (blocks : List BlockId) (links : Links BlockId) (free : List BlockId)
    (fresh : ∀ block ∈ blocks, block ∉ free) (distinct : blocks.Nodup)
    (pre : Prefix links free) :
    Prefix (FreeQueue.pushLoop blocks links (lastNode free)).1 (free ++ blocks) ∧
      (FreeQueue.pushLoop blocks links (lastNode free)).2 = lastNode (free ++ blocks) := by
  induction blocks generalizing links free with
  | nil => simpa [FreeQueue.pushLoop] using pre
  | cons block rest ih =>
    obtain ⟨absent, distinctRest⟩ := nodup_cons.mp distinct
    have pushed := prefix_push links free block (fresh block mem_cons_self) pre
    have freshRest : ∀ other ∈ rest, other ∉ free ++ [block] := by
      intro other member inside
      rcases mem_append.mp inside with old | same
      · exact fresh other (mem_cons_of_mem _ member) old
      · exact absent (mem_singleton.mp same ▸ member)
    have := ih _ (free ++ [block]) freshRest distinctRest pushed
    rw [lastNode_concat] at this
    simpa [FreeQueue.pushLoop] using this

theorem appendN_holds {free blocks : List BlockId} (fresh : ∀ block ∈ blocks, block ∉ free)
    (distinct : blocks.Nodup) (holds : Holds queue free) :
    ∃ queue', queue.appendN blocks = some queue' ∧ Holds queue' (free ++ blocks) := by
  by_cases none : blocks = []
  · subst none
    exact ⟨queue, by simp [FreeQueue.appendN], by simpa using holds⟩
  · have last := prev_tail queue.links free holds.represents
    obtain ⟨pre, final⟩ := pushLoop_prefix blocks queue.links free fresh distinct
      (prefix_of_represents _ _ holds.represents)
    let pushed := FreeQueue.pushLoop blocks queue.links (lastNode free)
    refine ⟨⟨(pushed.1.setNext pushed.2 (some .tail)).setPrev .tail (some pushed.2),
      queue.numFreeBlocks + blocks.length⟩,
      by simp only [FreeQueue.appendN, none, ↓reduceIte, last, pushed], ?_, ?_⟩
    · simp only [pushed, final]
      exact prefix_close _ _ pre
    · simp [holds.count]

end VllmDcu.FreeBlockQueue

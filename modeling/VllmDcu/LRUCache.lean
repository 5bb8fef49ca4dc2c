import VllmDcu.Dict
import Mathlib.Data.List.Dedup
import Mathlib.Algebra.Order.BigOperators.Group.List
import Mathlib.Algebra.Order.Ring.Nat

/-! The LRU cache over `cachetools`. The order keeps the least recently used key
first; a touch enters a key into the order also when the cache does not hold it.
Pinning is left out, so `popitem` takes the first key of the order. -/
namespace VllmDcu
open List Dict

structure LRUCache (Key Value : Type) where
  maxsize : Nat
  getsizeof : Value → Nat
  data : Dict Key Value
  order : List Key

namespace LRUCache
variable {Key Value : Type} [DecidableEq Key]

inductive Failure where
  | valueTooLarge
  | allPinned
  | neverEnds
  deriving DecidableEq, Repr

def empty (maxsize : Nat) (getsizeof : Value → Nat) : LRUCache Key Value :=
  ⟨maxsize, getsizeof, Dict.empty, []⟩

def contains (self : LRUCache Key Value) (key : Key) : Bool := self.data.contains key

def currsize (self : LRUCache Key Value) : Nat := self.data.total self.getsizeof

/-- `move_to_end`, which here also appends a key that is not there. -/
def moveToEnd (order : List Key) (key : Key) : List Key :=
  order.filter (fun other => decide (other ≠ key)) ++ [key]

def touch (self : LRUCache Key Value) (key : Key) : LRUCache Key Value :=
  { self with order := moveToEnd self.order key }

/-- A hit makes the key the most recent one. -/
def get (self : LRUCache Key Value) (key : Key) : LRUCache Key Value × Option Value :=
  match self.data.get? key with
  | some value => (self.touch key, some value)
  | none => (self, none)

/-- The loop of `__setitem__` that pops the first key of the order until `size` fits.
The pop of a key without a value removes nothing, and the loop comes back to it. -/
def popOldest (maxsize : Nat) (getsizeof : Value → Nat) (size : Nat) :
    List Key → Dict Key Value → Except Failure (Dict Key Value × List Key)
  | [], data =>
    if data.total getsizeof + size ≤ maxsize then .ok (data, []) else .error .allPinned
  | key :: rest, data =>
    if data.total getsizeof + size ≤ maxsize then .ok (data, key :: rest)
    else if data.contains key then popOldest maxsize getsizeof size rest (data.erase key)
    else .error .neverEnds

/-- A key that has a value of at least this size gets the new one without a check. -/
def makeRoom (self : LRUCache Key Value) (key : Key) (size : Nat) :
    Except Failure (Dict Key Value × List Key) :=
  match self.data.get? key with
  | some old =>
    if self.getsizeof old < size then
      popOldest self.maxsize self.getsizeof size self.order self.data
    else .ok (self.data, self.order)
  | none => popOldest self.maxsize self.getsizeof size self.order self.data

def setItem (self : LRUCache Key Value) (key : Key) (value : Value) :
    Except Failure (LRUCache Key Value) :=
  if self.maxsize < self.getsizeof value then .error .valueTooLarge
  else
    match self.makeRoom key (self.getsizeof value) with
    | .error failure => .error failure
    | .ok (data, order) =>
      .ok { self with data := data.set key value, order := moveToEnd order key }

/-- The touches of a batch of keys, in their order. -/
def touchAll (self : LRUCache Key Value) (keys : List Key) : LRUCache Key Value :=
  keys.foldl touch self

/-! A batch leaves its keys at the end of the order, each at its last use. -/

theorem moveToEnd_filter (order keys : List Key) (key : Key) :
    (moveToEnd order key).filter (fun other => decide (other ∉ keys)) ++ keys.dedup =
      order.filter (fun other => decide (other ∉ key :: keys)) ++ (key :: keys).dedup := by
  have before : (order.filter fun other => decide (other ≠ key)).filter
      (fun other => decide (other ∉ keys)) =
        order.filter fun other => decide (other ∉ key :: keys) := by
    simp [mem_cons, not_or, Bool.and_comm]
  rw [moveToEnd, filter_append, before]
  by_cases again : key ∈ keys
  · simp [again]
  · simp [again]

theorem foldl_moveToEnd (order keys : List Key) :
    keys.foldl moveToEnd order = order.filter (fun other => decide (other ∉ keys)) ++ keys.dedup := by
  induction keys generalizing order with
  | nil => simp
  | cons key rest ih =>
    rw [foldl_cons, ih]
    exact moveToEnd_filter order rest key

theorem touchAll_eq (self : LRUCache Key Value) (keys : List Key) :
    self.touchAll keys =
      { self with order := self.order.filter (fun other => decide (other ∉ keys)) ++ keys.dedup } := by
  have folded (cache : LRUCache Key Value) :
      keys.foldl touch cache = { cache with order := keys.foldl moveToEnd cache.order } := by
    induction keys generalizing cache with
    | nil => rfl
    | cons key rest ih => exact ih (cache.touch key)
  rw [touchAll, folded, foldl_moveToEnd]

/-- A second pass over the keys leaves them as the first one did. -/
theorem dedup_moveToEnd (keys : List Key) : keys.foldl moveToEnd keys.dedup = keys.dedup := by
  rw [foldl_moveToEnd]
  have : keys.dedup.filter (fun other => decide (other ∉ keys)) = [] := by
    simp
  rw [this, nil_append]

/-! What a batch evicts: the oldest keys, as few as make the batch fit. -/

def weight (sizeOf : Key → Nat) (keys : List Key) : Nat := (keys.map sizeOf).sum

/-- The most recent keys that fit into `room` together. -/
def keep (sizeOf : Key → Nat) (room : Nat) : List Key → List Key
  | [] => []
  | key :: rest =>
    if weight sizeOf (key :: rest) ≤ room then key :: rest else keep sizeOf room rest

section Weight
variable (sizeOf : Key → Nat)

omit [DecidableEq Key] in
@[simp] theorem weight_nil : weight sizeOf [] = 0 := rfl

omit [DecidableEq Key] in
@[simp] theorem weight_cons (key : Key) (rest : List Key) :
    weight sizeOf (key :: rest) = sizeOf key + weight sizeOf rest := by
  simp [weight]

omit [DecidableEq Key] in
@[simp] theorem weight_append (before after : List Key) :
    weight sizeOf (before ++ after) = weight sizeOf before + weight sizeOf after := by
  simp [weight]

omit [DecidableEq Key] in
theorem weight_subset {inner outer : List Key} (nodup : inner.Nodup)
    (subset : ∀ key ∈ inner, key ∈ outer) : weight sizeOf inner ≤ weight sizeOf outer := by
  obtain ⟨rest, perm, sublist⟩ := subperm_of_subset nodup subset
  calc weight sizeOf inner = weight sizeOf rest := ((perm.map sizeOf).sum_eq).symm
    _ ≤ weight sizeOf outer := (sublist.map sizeOf).sum_le_sum (fun _ _ => Nat.zero_le _)

omit [DecidableEq Key] in
theorem weight_members {left right : List Key} (leftNodup : left.Nodup) (rightNodup : right.Nodup)
    (same : ∀ key, key ∈ left ↔ key ∈ right) : weight sizeOf left = weight sizeOf right :=
  Nat.le_antisymm (weight_subset sizeOf leftNodup fun key => (same key).mp)
    (weight_subset sizeOf rightNodup fun key => (same key).mpr)

variable (room : Nat)

omit [DecidableEq Key] in
theorem keep_suffix (keys : List Key) : keep sizeOf room keys <:+ keys := by
  induction keys with
  | nil => exact suffix_rfl
  | cons key rest ih =>
    rw [keep]
    split
    · exact suffix_rfl
    · exact ih.trans (suffix_cons key rest)

omit [DecidableEq Key] in
theorem keep_fits (keys : List Key) : weight sizeOf (keep sizeOf room keys) ≤ room := by
  induction keys with
  | nil => exact Nat.zero_le _
  | cons key rest ih =>
    rw [keep]
    split
    · assumption
    · exact ih

omit [DecidableEq Key] in
theorem keep_all (keys : List Key) (fits : weight sizeOf keys ≤ room) :
    keep sizeOf room keys = keys := by
  cases keys with
  | nil => rfl
  | cons key rest => rw [keep, if_pos fits]

omit [DecidableEq Key] in
/-- Evicting twice is evicting for the smaller room. -/
theorem keep_keep (smaller : Nat) (keys : List Key) (le : smaller ≤ room) :
    keep sizeOf smaller (keep sizeOf room keys) = keep sizeOf smaller keys := by
  induction keys with
  | nil => rfl
  | cons key rest ih =>
    by_cases fits : weight sizeOf (key :: rest) ≤ room
    · rw [keep, if_pos fits]
    · have : ¬weight sizeOf (key :: rest) ≤ smaller := fun below => fits (below.trans le)
      rw [keep, if_neg fits, ih, keep, if_neg this]

end Weight

/-! While a batch is served: the order is what is left of the older keys, then the
keys of the batch; of those, the present ones have a value. -/

structure Batch (sizeOf : Key → Nat) (maxsize : Nat) (olds recent : List Key) : Prop where
  oldsNodup : olds.Nodup
  recentNodup : recent.Nodup
  apart : ∀ key ∈ olds, key ∉ recent
  budget : weight sizeOf recent ≤ maxsize

structure Serving (sizeOf : Key → Nat) (olds present recent : List Key)
    (cache : LRUCache Key Value) : Prop where
  batch : Batch sizeOf cache.maxsize olds recent
  order : cache.order = keep sizeOf (cache.maxsize - weight sizeOf present) olds ++ recent
  keys : ∀ key, key ∈ cache.data.keys ↔
    key ∈ keep sizeOf (cache.maxsize - weight sizeOf present) olds ∨ key ∈ present
  sizes : ∀ key value, cache.data.get? key = some value → cache.getsizeof value = sizeOf key
  presentNodup : present.Nodup
  recents : ∀ key ∈ present, key ∈ recent

theorem total_eq_weight {sizeOf : Key → Nat} {getsizeof : Value → Nat} {data : Dict Key Value}
    (sizes : ∀ key value, data.get? key = some value → getsizeof value = sizeOf key) :
    data.total getsizeof = weight sizeOf data.keys := by
  simp only [total, values, weight, Dict.keys, map_map]
  congr 1
  apply map_congr_left
  intro entry member
  exact sizes entry.1 entry.2 ((get?_eq_some_iff data).mpr member)

theorem total_eq_members (sizeOf : Key → Nat) (getsizeof : Value → Nat) (data : Dict Key Value)
    (olds present : List Key)
    (sizes : ∀ key value, data.get? key = some value → getsizeof value = sizeOf key)
    (nodup : (olds ++ present).Nodup) (keys : ∀ key, key ∈ data.keys ↔ key ∈ olds ∨ key ∈ present) :
    data.total getsizeof = weight sizeOf olds + weight sizeOf present := by
  rw [total_eq_weight sizes, ← weight_append]
  apply weight_members sizeOf data.unique nodup
  intro key
  rw [mem_append]
  exact keys key

theorem popOldest_fits (maxsize : Nat) (getsizeof : Value → Nat) (size : Nat) (order : List Key)
    (data : Dict Key Value) (fits : data.total getsizeof + size ≤ maxsize) :
    popOldest maxsize getsizeof size order data = .ok (data, order) := by
  cases order with
  | nil => rw [popOldest, if_pos fits]
  | cons key rest => rw [popOldest, if_pos fits]

/-- While the batch fits, the loop ends within the older keys. -/
theorem popOldest_keep (sizeOf : Key → Nat) (maxsize : Nat) (getsizeof : Value → Nat) (size : Nat)
    (olds present recent : List Key) (data : Dict Key Value)
    (sizes : ∀ key value, data.get? key = some value → getsizeof value = sizeOf key)
    (nodup : (olds ++ present).Nodup) (keys : ∀ key, key ∈ data.keys ↔ key ∈ olds ∨ key ∈ present)
    (fits : weight sizeOf present + size ≤ maxsize) :
    ∃ left, popOldest maxsize getsizeof size (olds ++ recent) data =
        .ok (left, keep sizeOf (maxsize - (weight sizeOf present + size)) olds ++ recent) ∧
      (∀ key, key ∈ left.keys ↔
        key ∈ keep sizeOf (maxsize - (weight sizeOf present + size)) olds ∨ key ∈ present) ∧
      ∀ key value, left.get? key = some value → data.get? key = some value := by
  induction olds generalizing data with
  | nil =>
    have total := total_eq_members sizeOf getsizeof data [] present sizes nodup keys
    rw [weight_nil] at total
    exact ⟨data, popOldest_fits maxsize getsizeof size recent data (by omega), keys, fun _ _ h => h⟩
  | cons key rest ih =>
    have total := total_eq_members sizeOf getsizeof data (key :: rest) present sizes nodup keys
    by_cases enough : data.total getsizeof + size ≤ maxsize
    · have kept : keep sizeOf (maxsize - (weight sizeOf present + size)) (key :: rest) =
          key :: rest := keep_all sizeOf _ _ (by omega)
      rw [kept]
      exact ⟨data, popOldest_fits maxsize getsizeof size _ data enough, keys, fun _ _ h => h⟩
    · have evicted : keep sizeOf (maxsize - (weight sizeOf present + size)) (key :: rest) =
          keep sizeOf (maxsize - (weight sizeOf present + size)) rest := by
        rw [keep, if_neg (by omega)]
      rw [cons_append, nodup_cons, mem_append, not_or] at nodup
      obtain ⟨fresh, nodup⟩ := nodup
      have held : data.contains key = true := by
        obtain ⟨value, found⟩ := (mem_keys_iff data key).mp ((keys key).mpr (.inl (by simp)))
        simp [Dict.contains, found]
      have older (other : Key) (value : Value)
          (found : (data.erase key).get? other = some value) : data.get? other = some value := by
        rw [get?_erase] at found
        split at found
        · cases found
        · exact found
      have erased (other : Key) : other ∈ (data.erase key).keys ↔ other ∈ rest ∨ other ∈ present := by
        rw [mem_keys_erase, keys other, mem_cons]
        constructor
        · rintro ⟨differs, (same | inRest) | inPresent⟩
          · exact absurd same differs
          · exact .inl inRest
          · exact .inr inPresent
        · rintro (inRest | inPresent)
          · exact ⟨fun same => fresh.1 (same ▸ inRest), .inl (.inr inRest)⟩
          · exact ⟨fun same => fresh.2 (same ▸ inPresent), .inr inPresent⟩
      obtain ⟨left, popped, leftKeys, leftValues⟩ := ih (data.erase key)
        (fun other value found => sizes other value (older other value found)) nodup erased
      rw [evicted]
      refine ⟨left, ?_, leftKeys, fun other value found => older other value (leftValues other value found)⟩
      rw [cons_append, popOldest, if_neg enough, if_pos held]
      exact popped

omit [DecidableEq Key] in
theorem keep_subset {sizeOf : Key → Nat} {room : Nat} {keys : List Key} {key : Key}
    (member : key ∈ keep sizeOf room keys) : key ∈ keys :=
  (keep_suffix sizeOf room keys).mem member

theorem moveToEnd_append {older recent : List Key} {key : Key} (absent : key ∉ older) :
    moveToEnd (older ++ recent) key = older ++ moveToEnd recent key := by
  have untouched : older.filter (fun other => decide (other ≠ key)) = older := by
    apply filter_eq_self.mpr
    intro other member
    simpa using fun same : other = key => absent (same ▸ member)
  simp only [moveToEnd, filter_append, untouched, append_assoc]

@[simp] theorem mem_moveToEnd (order : List Key) (key other : Key) :
    other ∈ moveToEnd order key ↔ other = key ∨ other ∈ order := by
  by_cases same : other = key <;> simp [moveToEnd, same]

theorem moveToEnd_nodup {order : List Key} (key : Key) (nodup : order.Nodup) :
    (moveToEnd order key).Nodup := by
  rw [moveToEnd, nodup_append]
  refine ⟨nodup.filter _, by simp, ?_⟩
  rintro other member _ (_ | ⟨_, ⟨⟩⟩) rfl
  simp at member

variable {sizeOf : Key → Nat}

theorem Batch.moveToEnd {maxsize : Nat} {olds recent : List Key}
    (batch : Batch sizeOf maxsize olds recent) (key : Key) (inBatch : key ∈ recent) :
    Batch sizeOf maxsize olds (moveToEnd recent key) := by
  have nodup := moveToEnd_nodup key batch.recentNodup
  have members (other : Key) : other ∈ LRUCache.moveToEnd recent key ↔ other ∈ recent := by
    rw [mem_moveToEnd]
    exact ⟨fun member => member.elim (fun same => same ▸ inBatch) id, .inr⟩
  constructor
  · exact batch.oldsNodup
  · exact nodup
  · intro other old member
    exact batch.apart other old ((members other).mp member)
  · rw [weight_members sizeOf nodup batch.recentNodup members]
    exact batch.budget

omit [DecidableEq Key] in
theorem Batch.notOld {maxsize : Nat} {olds recent : List Key}
    (batch : Batch sizeOf maxsize olds recent) (room : Nat) (key : Key) (inBatch : key ∈ recent) :
    key ∉ keep sizeOf room olds := fun old =>
  batch.apart key (keep_subset old) inBatch

variable {olds present recent : List Key} {cache : LRUCache Key Value}

section
variable (serving : Serving sizeOf olds present recent cache)
include serving

/-- A key of the batch without a value is not among the older keys either. -/
theorem Serving.absent (key : Key)
    (inBatch : key ∈ recent) (new : key ∉ present) : cache.data.get? key = none := by
  cases found : cache.data.get? key with
  | none => rfl
  | some value =>
    rcases (serving.keys key).mp ((mem_keys_iff cache.data key).mpr ⟨value, found⟩) with old | held
    · exact absurd old (serving.batch.notOld _ key inBatch)
    · exact absurd held new

theorem Serving.get_hit (key : Key) (held : key ∈ present) :
    ∃ value, cache.get key = (cache.touch key, some value) ∧
      Serving sizeOf olds present (moveToEnd recent key) (cache.touch key) := by
  obtain ⟨value, found⟩ := (mem_keys_iff cache.data key).mp ((serving.keys key).mpr (.inr held))
  have inBatch := serving.recents key held
  refine ⟨value, by rw [get, found], ?_⟩
  constructor
  · exact serving.batch.moveToEnd key inBatch
  · change moveToEnd cache.order key = _
    rw [serving.order]
    exact moveToEnd_append (serving.batch.notOld _ key inBatch)
  · exact serving.keys
  · exact serving.sizes
  · exact serving.presentNodup
  · intro other member
    exact (mem_moveToEnd recent key other).mpr (.inr (serving.recents other member))

/-- A key of the batch that has no value yet is entered, at the expense of older keys only. -/
theorem Serving.setItem (key : Key) (value : Value) (inBatch : key ∈ recent) (new : key ∉ present)
    (size : cache.getsizeof value = sizeOf key) :
    ∃ next, cache.setItem key value = .ok next ∧ next.maxsize = cache.maxsize ∧
      next.getsizeof = cache.getsizeof ∧
      Serving sizeOf olds (key :: present) (moveToEnd recent key) next := by
  have presentNodup : (key :: present).Nodup := nodup_cons.mpr ⟨new, serving.presentNodup⟩
  have room : weight sizeOf (key :: present) ≤ cache.maxsize := by
    refine (weight_subset sizeOf presentNodup ?_).trans serving.batch.budget
    intro other member
    rcases mem_cons.mp member with rfl | before
    · exact inBatch
    · exact serving.recents other before
  have apart : (keep sizeOf (cache.maxsize - weight sizeOf present) olds ++ present).Nodup := by
    rw [nodup_append]
    refine ⟨(keep_suffix sizeOf _ olds).sublist.nodup serving.batch.oldsNodup,
      serving.presentNodup, ?_⟩
    rintro other old _ held rfl
    exact serving.batch.notOld _ other (serving.recents other held) old
  rw [weight_cons] at room
  obtain ⟨left, popped, leftKeys, leftValues⟩ := popOldest_keep sizeOf cache.maxsize cache.getsizeof
    (sizeOf key) _ present recent cache.data serving.sizes apart serving.keys (by omega)
  rw [keep_keep sizeOf _ _ olds (by omega), Nat.add_comm, ← weight_cons] at popped leftKeys
  refine ⟨{ cache with
    data := left.set key value
    order := moveToEnd (keep sizeOf (cache.maxsize - weight sizeOf (key :: present)) olds ++ recent) key },
    ?_, rfl, rfl, ?_⟩
  · rw [LRUCache.setItem, if_neg (by omega), makeRoom, serving.absent key inBatch new, size,
      serving.order]
    simp only [popped]
  constructor
  · exact serving.batch.moveToEnd key inBatch
  · exact moveToEnd_append (serving.batch.notOld _ key inBatch)
  · intro other
    rw [mem_keys_set, leftKeys other, mem_cons]
    exact or_left_comm
  · intro other stored found
    rw [get?_set] at found
    split at found
    · rename_i same
      cases found
      rw [same]
      exact size
    · exact serving.sizes other stored (leftValues other stored found)
  · exact presentNodup
  · intro other member
    rw [mem_moveToEnd]
    rcases mem_cons.mp member with same | before
    · exact .inl same
    · exact .inr (serving.recents other before)

end

/-! Between batches every key of the order has a value and the values fit. -/

structure Tidy (sizeOf : Key → Nat) (cache : LRUCache Key Value) : Prop where
  nodup : cache.order.Nodup
  keys : ∀ key, key ∈ cache.data.keys ↔ key ∈ cache.order
  sizes : ∀ key value, cache.data.get? key = some value → cache.getsizeof value = sizeOf key
  fits : weight sizeOf cache.order ≤ cache.maxsize

/-- What serving a batch makes of the order. -/
def settled (sizeOf : Key → Nat) (maxsize : Nat) (order keys : List Key) : List Key :=
  keep sizeOf (maxsize - weight sizeOf keys.dedup)
    (order.filter fun key => decide (key ∉ keys)) ++ keys.dedup

theorem tidy_empty {sizeOf : Key → Nat} {maxsize : Nat} {getsizeof : Value → Nat} :
    Tidy sizeOf (empty maxsize getsizeof : LRUCache Key Value) := by
  constructor
  · exact nodup_nil
  · intro key
    exact Iff.rfl
  · intro key value found
    cases found
  · exact Nat.zero_le _

theorem Tidy.touchAll (tidy : Tidy sizeOf cache) (keys : List Key)
    (budget : weight sizeOf keys.dedup ≤ cache.maxsize) :
    Serving sizeOf (cache.order.filter fun key => decide (key ∉ keys))
      (cache.order.filter fun key => decide (key ∈ keys)) keys.dedup (cache.touchAll keys) := by
  rw [touchAll_eq]
  have split : weight sizeOf (cache.order.filter fun key => decide (key ∉ keys)) +
      weight sizeOf (cache.order.filter fun key => decide (key ∈ keys)) =
        weight sizeOf cache.order := by
    rw [← weight_append]
    apply weight_members sizeOf _ tidy.nodup
    · intro key
      by_cases inBatch : key ∈ keys <;> simp [inBatch]
    · rw [nodup_append]
      refine ⟨tidy.nodup.filter _, tidy.nodup.filter _, ?_⟩
      rintro key old _ held rfl
      simp only [mem_filter, decide_eq_true_eq] at old held
      exact old.2 held.2
  have kept := keep_all sizeOf
    (cache.maxsize - weight sizeOf (cache.order.filter fun key => decide (key ∈ keys)))
    (cache.order.filter fun key => decide (key ∉ keys)) (by have := tidy.fits; omega)
  constructor
  · constructor
    · exact tidy.nodup.filter _
    · exact nodup_dedup keys
    · intro key old
      simpa using (mem_filter.mp old).2
    · exact budget
  · rw [kept]
  · intro key
    rw [kept, tidy.keys key]
    by_cases inBatch : key ∈ keys <;> simp [inBatch]
  · exact tidy.sizes
  · exact tidy.nodup.filter _
  · intro key held
    simpa using (mem_filter.mp held).2

theorem Serving.settle {order present keys : List Key} {cache : LRUCache Key Value}
    (serving : Serving sizeOf (order.filter fun key => decide (key ∉ keys)) present keys.dedup
      cache) (all : ∀ key ∈ keys, key ∈ present) :
    Tidy sizeOf cache ∧ cache.order = settled sizeOf cache.maxsize order keys := by
  have members (key : Key) : key ∈ present ↔ key ∈ keys.dedup :=
    ⟨serving.recents key, fun member => all key (mem_dedup.mp member)⟩
  have same := weight_members sizeOf serving.presentNodup serving.batch.recentNodup members
  have closed := serving.order
  rw [same] at closed
  refine ⟨?_, closed⟩
  constructor
  · rw [closed, nodup_append]
    refine ⟨(keep_suffix sizeOf _ _).sublist.nodup serving.batch.oldsNodup,
      serving.batch.recentNodup, ?_⟩
    rintro key old _ held rfl
    exact serving.batch.notOld _ key held old
  · intro key
    rw [serving.keys key, serving.order, mem_append, members key]
  · exact serving.sizes
  · rw [closed, weight_append]
    have := keep_fits sizeOf (cache.maxsize - weight sizeOf keys.dedup)
      (order.filter fun key => decide (key ∉ keys))
    have := serving.batch.budget
    omega

/-- Keys that are the most recent ones already, in that order, stay as they are. -/
theorem Tidy.settled_suffix (tidy : Tidy sizeOf cache) (keys : List Key)
    (recent : keys.dedup <:+ cache.order) :
    settled sizeOf cache.maxsize cache.order keys = cache.order := by
  obtain ⟨olds, split⟩ := recent
  have nodup := tidy.nodup
  have fits := tidy.fits
  rw [← split] at nodup fits ⊢
  rw [nodup_append] at nodup
  rw [weight_append] at fits
  have older : (olds ++ keys.dedup).filter (fun key => decide (key ∉ keys)) = olds := by
    have gone : keys.dedup.filter (fun key => decide (key ∉ keys)) = [] := by
      apply filter_eq_nil_iff.mpr
      intro key member
      simpa using mem_dedup.mp member
    rw [filter_append, gone, append_nil]
    apply filter_eq_self.mpr
    intro key member
    simpa using fun inBatch : key ∈ keys =>
      nodup.2.2 key member key (mem_dedup.mpr inBatch) rfl
  rw [settled, older, keep_all sizeOf _ olds (by omega)]

end LRUCache
end VllmDcu

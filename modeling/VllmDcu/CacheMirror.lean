import VllmDcu.LRUCache
import Mathlib.Data.List.Sort

/-! The two caches of multimodal items: the sender's on P0 keeps the metadata, the
receiver's on P1 keeps the items, and an item that the sender has is sent without its
data. A request lists its items modality by modality; the receiver sees them in the
order of the prompt. -/
namespace VllmDcu.CacheMirror
open List Function Dict

/-- An item, with what the processor makes of it and the offset of its placeholder. -/
structure MMItem (Hash Item Update : Type) where
  hash : Hash
  item : Item
  promptUpdates : List Update
  offset : Nat

/-- A request; `rejected` tells that `_validate_model_inputs` raises for it. -/
structure Request (Hash Item Update : Type) where
  modalities : List (List (MMItem Hash Item Update))
  rejected : Bool

/-- `MultiModalProcessorCacheItemMetadata` -/
structure Metadata (Update : Type) where
  itemSize : Nat
  promptUpdates : List Update

/-- `MultiModalFeatureSpec` -/
structure Feature (Hash Item : Type) where
  data : Option Item
  mmHash : Hash
  offset : Nat

inductive Failure where
  | cache (failure : LRUCache.Failure)
  | expectedCached
  | outOfRange
  deriving DecidableEq, Repr

variable {Hash Item Update : Type} [DecidableEq Hash]

/-- `get_and_update_item` of the sender. -/
def senderItem (getItemSize : Item → Nat) (cache : LRUCache Hash (Metadata Update))
    (mmItem : Option (Item × List Update)) (mmHash : Hash) :
    LRUCache Hash (Metadata Update) × Except Failure (Option Item × List Update) :=
  match cache.get mmHash with
  | (cache, some cachedItem) => (cache, .ok (none, cachedItem.promptUpdates))
  | (cache, none) =>
    match mmItem with
    | none => (cache, .error .expectedCached)
    | some (item, updates) =>
      match cache.setItem mmHash ⟨getItemSize item, updates⟩ with
      | .error failure => (cache, .error (.cache failure))
      | .ok cache => (cache, .ok (some item, updates))

/-- `get_and_update_item` of the receiver. -/
def receiverItem (cache : LRUCache Hash Item) (mmItem : Option Item) (mmHash : Hash) :
    LRUCache Hash Item × Except Failure Item :=
  match cache.get mmHash with
  | (cache, some cachedItem) => (cache, .ok cachedItem)
  | (cache, none) =>
    match mmItem with
    | none => (cache, .error .expectedCached)
    | some item =>
      match cache.setItem mmHash item with
      | .error failure => (cache, .error (.cache failure))
      | .ok cache => (cache, .ok item)

/-- `_get_cache_missing_items` and the processing of what is missing: which items of
a modality the cache has, and the processed ones that it has not. -/
def missingItems (cache : LRUCache Hash (Metadata Update)) (items : List (MMItem Hash Item Update)) :
    List (Hash × Bool) × List (Item × List Update) :=
  (items.map fun item => (item.hash, cache.contains item.hash),
    (items.filter fun item => !cache.contains item.hash).map fun item =>
      (item.item, item.promptUpdates))

/-- The item to pass for a hash, and the missing ones after it. -/
def nextMissing (isCached : Bool) (missing : List (Item × List Update)) :
    Option (Option (Item × List Update) × List (Item × List Update)) :=
  match isCached, missing with
  | true, missing => some (none, missing)
  | false, next :: missing => some (some next, missing)
  | false, [] => none

/-- The inner loop of `_merge_mm_kwargs`, over one modality. -/
def mergeItems (getItemSize : Item → Nat) (recompute : Update → Nat → Update) :
    List (Hash × Bool) → LRUCache Hash (Metadata Update) → Nat → List (Item × List Update) →
      LRUCache Hash (Metadata Update) × Except Failure (List (Option Item × List Update))
  | [], cache, _, _ => (cache, .ok [])
  | (itemHash, isCached) :: rest, cache, itemIdx, missing =>
    match nextMissing isCached missing with
    | none => (cache, .error .outOfRange)
    | some (item, missing) =>
      match senderItem getItemSize cache item itemHash with
      | (cache, .error failure) => (cache, .error failure)
      | (cache, .ok (kwargs, updates)) =>
        match mergeItems getItemSize recompute rest cache (itemIdx + 1) missing with
        | (cache, .error failure) => (cache, .error failure)
        | (cache, .ok merged) =>
          (cache, .ok ((kwargs, updates.map fun update => recompute update itemIdx) :: merged))

def mergeModalities (getItemSize : Item → Nat) (recompute : Update → Nat → Update) :
    List (List (Hash × Bool) × List (Item × List Update)) → LRUCache Hash (Metadata Update) →
      LRUCache Hash (Metadata Update) × Except Failure (List (List (Option Item × List Update)))
  | [], cache => (cache, .ok [])
  | (hashes, missing) :: rest, cache =>
    match mergeItems getItemSize recompute hashes cache 0 missing with
    | (cache, .error failure) => (cache, .error failure)
    | (cache, .ok merged) =>
      match mergeModalities getItemSize recompute rest cache with
      | (cache, .error failure) => (cache, .error failure)
      | (cache, .ok others) => (cache, .ok (merged :: others))

/-- All hashes are touched first, then the modalities are merged. -/
def mergeMMKwargs (getItemSize : Item → Nat) (recompute : Update → Nat → Update)
    (cache : LRUCache Hash (Metadata Update))
    (modalities : List (List (Hash × Bool) × List (Item × List Update))) :
    LRUCache Hash (Metadata Update) × Except Failure (List (List (Option Item × List Update))) :=
  mergeModalities getItemSize recompute modalities
    (cache.touchAll (modalities.flatMap fun modality => modality.1.map Prod.fst))

/-- The places of the items, by the offset of the placeholder; a stable sort. -/
def argsortMMPositions (offsets : List Nat) : List Nat :=
  (offsets.zipIdx.insertionSort fun left right => left.1 ≤ right.1).map Prod.snd

def featureAt (merged : List (Option Item × List Update)) (items : List (MMItem Hash Item Update))
    (idx : Nat) : Option (Feature Hash Item) :=
  match merged[idx]?, items[idx]? with
  | some (kwargs, _), some item => some ⟨kwargs, item.hash, item.offset⟩
  | _, _ => none

/-- The features of a request, in the order of the prompt. -/
def mmFeatures (merged : List (Option Item × List Update)) (items : List (MMItem Hash Item Update)) :
    List (Feature Hash Item) :=
  (argsortMMPositions (items.map MMItem.offset)).filterMap (featureAt merged items)

/-- The second loop of `get_and_update_features`. -/
def updateFeatures : List (Feature Hash Item) → LRUCache Hash Item →
    LRUCache Hash Item × Except Failure (List (Feature Hash Item))
  | [], cache => (cache, .ok [])
  | feature :: rest, cache =>
    match receiverItem cache feature.data feature.mmHash with
    | (cache, .error failure) => (cache, .error failure)
    | (cache, .ok item) =>
      match updateFeatures rest cache with
      | (cache, .error failure) => (cache, .error failure)
      | (cache, .ok updated) => (cache, .ok ({ feature with data := some item } :: updated))

def getAndUpdateFeatures (cache : LRUCache Hash Item) (features : List (Feature Hash Item)) :
    LRUCache Hash Item × Except Failure (List (Feature Hash Item)) :=
  updateFeatures features (cache.touchAll (features.map Feature.mmHash))

def Request.items (self : Request Hash Item Update) : List (MMItem Hash Item Update) :=
  self.modalities.flatten

/-- Both caches, and what came of each delivered request on P1. -/
structure System (Hash Item Update : Type) where
  sender : LRUCache Hash (Metadata Update)
  receiver : LRUCache Hash Item
  arrived : List (Except Failure (List (Feature Hash Item)))

def System.init (getItemSize : Item → Nat) (maxsize : Nat) : System Hash Item Update where
  sender := .empty maxsize Metadata.itemSize
  receiver := .empty maxsize getItemSize
  arrived := []

/-- One request on P0 and, unless it is rejected or fails there, on P1. None when a
cache never comes back. -/
def System.process (getItemSize : Item → Nat) (recompute : Update → Nat → Update)
    (system : System Hash Item Update) (request : Request Hash Item Update) :
    Option (System Hash Item Update) :=
  match mergeMMKwargs getItemSize recompute system.sender
      (request.modalities.map (missingItems system.sender)) with
  | (_, .error (.cache .neverEnds)) => none
  | (sender, .error _) => some { system with sender := sender }
  | (sender, .ok merged) =>
    if request.rejected then some { system with sender := sender }
    else
      match getAndUpdateFeatures system.receiver (mmFeatures merged.flatten request.items) with
      | (_, .error (.cache .neverEnds)) => none
      | (receiver, outcome) => some ⟨sender, receiver, system.arrived ++ [outcome]⟩

def System.run (getItemSize : Item → Nat) (recompute : Update → Nat → Update) :
    System Hash Item Update → List (Request Hash Item Update) → Option (System Hash Item Update)
  | system, [] => some system
  | system, request :: rest =>
    (system.process getItemSize recompute request).bind fun next =>
      next.run getItemSize recompute rest

def Request.hashes (self : Request Hash Item Update) : List Hash := self.items.map MMItem.hash

def Request.promptHashes (self : Request Hash Item Update) : List Hash :=
  (argsortMMPositions (self.items.map MMItem.offset)).filterMap fun idx => self.hashes[idx]?

/-- A rejected request has the most recent items only, in their order. The items of
another one fit into the cache together, are used last in the same order on both
sides, and an item that is not cached comes first where its data is. -/
def Request.Aligned (sizeOf : Hash → Nat) (system : System Hash Item Update)
    (request : Request Hash Item Update) : Prop :=
  if request.rejected then request.hashes.dedup <:+ system.sender.order
  else
    LRUCache.weight sizeOf request.hashes.dedup ≤ system.sender.maxsize ∧
      request.promptHashes.dedup = request.hashes.dedup ∧
      ∀ item ∈ request.items,
        ∀ first ∈ request.items.find? (fun other => decide (other.hash = item.hash)),
          system.sender.contains item.hash = true ∨ first.offset ≤ item.offset

instance (sizeOf : Hash → Nat) (system : System Hash Item Update)
    (request : Request Hash Item Update) : Decidable (request.Aligned sizeOf system) :=
  inferInstanceAs (Decidable (if request.rejected then
      request.hashes.dedup <:+ system.sender.order
    else LRUCache.weight sizeOf request.hashes.dedup ≤ system.sender.maxsize ∧
      request.promptHashes.dedup = request.hashes.dedup ∧
      ∀ item ∈ request.items,
        ∀ first ∈ request.items.find? (fun other => decide (other.hash = item.hash)),
          system.sender.contains item.hash = true ∨ first.offset ≤ item.offset))

def AlignedRun (getItemSize : Item → Nat) (recompute : Update → Nat → Update)
    (sizeOf : Hash → Nat) : System Hash Item Update → List (Request Hash Item Update) → Prop
  | _, [] => True
  | system, request :: rest => request.Aligned sizeOf system ∧
      ∀ next ∈ system.process getItemSize recompute request,
        AlignedRun getItemSize recompute sizeOf next rest

instance decideAlignedRun (getItemSize : Item → Nat) (recompute : Update → Nat → Update)
    (sizeOf : Hash → Nat) : (system : System Hash Item Update) →
      (requests : List (Request Hash Item Update)) →
        Decidable (AlignedRun getItemSize recompute sizeOf system requests)
  | _, [] => .isTrue trivial
  | system, request :: rest =>
    have _ (next : System Hash Item Update) :=
      decideAlignedRun getItemSize recompute sizeOf next rest
    inferInstanceAs (Decidable (request.Aligned sizeOf system ∧
      ∀ next ∈ system.process getItemSize recompute request,
        AlignedRun getItemSize recompute sizeOf next rest))

/-! The sender, item by item: what it has already is sent without its data. -/

/-- The data that is sent for a list of items, when the known hashes are cached. -/
def sent : List Hash → List (MMItem Hash Item Update) → List (Option Item)
  | _, [] => []
  | known, item :: rest =>
    (if item.hash ∈ known then none else some item.item) :: sent (item.hash :: known) rest

/-- The hashes that are cached after a list of items. -/
def knownAfter (known : List Hash) (items : List (MMItem Hash Item Update)) : List Hash :=
  items.foldl (fun known item => item.hash :: known) known

omit [DecidableEq Hash] in
theorem mem_knownAfter (known : List Hash) (items : List (MMItem Hash Item Update)) (hash : Hash) :
    hash ∈ knownAfter known items ↔ hash ∈ known ∨ hash ∈ items.map MMItem.hash := by
  induction items generalizing known with
  | nil => simp [knownAfter]
  | cons item rest ih =>
    refine (ih (item.hash :: known)).trans ?_
    simp only [mem_cons, map_cons]
    rw [or_assoc]
    exact or_left_comm

theorem sent_append (known : List Hash) (before after : List (MMItem Hash Item Update)) :
    sent known (before ++ after) = sent known before ++ sent (knownAfter known before) after := by
  induction before generalizing known with
  | nil => rfl
  | cons item rest ih =>
    rw [cons_append, sent, ih]
    rfl

theorem sent_length (known : List Hash) (items : List (MMItem Hash Item Update)) :
    (sent known items).length = items.length := by
  induction items generalizing known with
  | nil => rfl
  | cons item rest ih => rw [sent, length_cons, ih, length_cons]

theorem sent_some (known : List Hash) (items : List (MMItem Hash Item Update)) (idx : Nat)
    (data : Item) (found : (sent known items)[idx]? = some (some data)) :
    ∃ item, items[idx]? = some item ∧ item.item = data := by
  induction items generalizing known idx with
  | nil => simp [sent] at found
  | cons item rest ih =>
    cases idx with
    | zero =>
      simp only [sent, getElem?_cons_zero, Option.some.injEq] at found
      split at found
      · cases found
      · exact ⟨item, rfl, Option.some.inj found⟩
    | succ idx => exact ih (item.hash :: known) idx found

/-- An item without its data is known, or the same hash comes before it. -/
theorem sent_none (known : List Hash) (items : List (MMItem Hash Item Update)) (idx : Nat)
    (item : MMItem Hash Item Update) (here : items[idx]? = some item)
    (found : (sent known items)[idx]? = some none) :
    item.hash ∈ known ∨ item.hash ∈ (items.take idx).map MMItem.hash := by
  induction items generalizing known idx with
  | nil => simp at here
  | cons first rest ih =>
    cases idx with
    | zero =>
      simp only [getElem?_cons_zero, Option.some.injEq] at here
      simp only [sent, getElem?_cons_zero, Option.some.injEq, here] at found
      split at found
      · exact .inl (by assumption)
      · cases found
    | succ idx =>
      rcases ih (first.hash :: known) idx here found with isKnown | before
      · rcases mem_cons.mp isKnown with same | earlier
        · exact .inr (by simp [same])
        · exact .inl earlier
      · exact .inr (by simpa using .inr (by simpa using before))

section Serve
variable (getItemSize : Item → Nat) (recompute : Update → Nat → Update) (sizeOf : Hash → Nat)

theorem senderItem_serving (olds present recent : List Hash)
    (cache : LRUCache Hash (Metadata Update)) (sizing : cache.getsizeof = Metadata.itemSize)
    (serving : LRUCache.Serving sizeOf olds present recent cache) (mmItem : Option (Item × List Update))
    (mmHash : Hash) (inBatch : mmHash ∈ recent) (provided : mmItem = none → mmHash ∈ present)
    (size : ∀ entry, mmItem = some entry → getItemSize entry.1 = sizeOf mmHash) :
    ∃ next updates present', senderItem getItemSize cache mmItem mmHash =
        (next, .ok (if mmHash ∈ present then none else mmItem.map Prod.fst, updates)) ∧
      next.maxsize = cache.maxsize ∧ next.getsizeof = Metadata.itemSize ∧
      LRUCache.Serving sizeOf olds present' (LRUCache.moveToEnd recent mmHash) next ∧
      ∀ hash, hash ∈ present' ↔ hash = mmHash ∨ hash ∈ present := by
  by_cases held : mmHash ∈ present
  · obtain ⟨value, hit, served⟩ := serving.get_hit mmHash held
    refine ⟨cache.touch mmHash, value.promptUpdates, present, ?_, rfl, sizing, served, ?_⟩
    · rw [senderItem, hit, if_pos held]
    · intro hash
      exact ⟨.inr, fun member => member.elim (fun same => same ▸ held) id⟩
  · cases mmItem with
    | none => exact absurd (provided rfl) held
    | some entry =>
      obtain ⟨item, updates⟩ := entry
      have itemSize : cache.getsizeof ⟨getItemSize item, updates⟩ = sizeOf mmHash := by
        rw [sizing]
        exact size _ rfl
      obtain ⟨next, stored, maxsize, getsizeof, served⟩ :=
        serving.setItem mmHash ⟨getItemSize item, updates⟩ inBatch held itemSize
      refine ⟨next, updates, mmHash :: present, ?_, maxsize, getsizeof.trans sizing, served, ?_⟩
      · have miss : cache.get mmHash = (cache, none) := by
          rw [LRUCache.get, serving.absent mmHash inBatch held]
        rw [senderItem, miss, if_neg held]
        simp only [stored, Option.map_some]
      · intro hash
        exact mem_cons

theorem mergeItems_serving (cached : Hash → Bool) (olds : List Hash)
    (items : List (MMItem Hash Item Update)) (known present recent : List Hash)
    (cache : LRUCache Hash (Metadata Update)) (idx : Nat)
    (sizing : cache.getsizeof = Metadata.itemSize)
    (serving : LRUCache.Serving sizeOf olds present recent cache)
    (inBatch : ∀ item ∈ items, item.hash ∈ recent)
    (cachedPresent : ∀ item ∈ items, cached item.hash = true → item.hash ∈ present)
    (sizes : ∀ item ∈ items, getItemSize item.item = sizeOf item.hash)
    (knows : ∀ hash, hash ∈ known ↔ hash ∈ present) :
    ∃ next merged present', mergeItems getItemSize recompute
        (items.map fun item => (item.hash, cached item.hash)) cache idx
        ((items.filter fun item => !cached item.hash).map fun item => (item.item, item.promptUpdates)) =
          (next, .ok merged) ∧
      next.maxsize = cache.maxsize ∧ next.getsizeof = Metadata.itemSize ∧
      LRUCache.Serving sizeOf olds present'
        ((items.map MMItem.hash).foldl LRUCache.moveToEnd recent) next ∧
      (∀ hash, hash ∈ knownAfter known items ↔ hash ∈ present') ∧
      merged.map Prod.fst = sent known items := by
  induction items generalizing known present recent cache idx with
  | nil => exact ⟨cache, [], present, rfl, rfl, sizing, serving, knows, rfl⟩
  | cons item rest ih =>
    -- the missing item that is passed, and what is left for the others
    obtain ⟨mmItem, passed, given⟩ : ∃ mmItem : Option (Item × List Update),
        nextMissing (cached item.hash) (((item :: rest).filter fun item => !cached item.hash).map
            fun item => (item.item, item.promptUpdates)) =
          some (mmItem, (rest.filter fun item => !cached item.hash).map
            fun item => (item.item, item.promptUpdates)) ∧
        (mmItem = none ∧ item.hash ∈ present ∨ mmItem = some (item.item, item.promptUpdates)) := by
      cases flag : cached item.hash with
      | true =>
        have := cachedPresent item mem_cons_self flag
        exact ⟨none, by simp [nextMissing, flag], .inl ⟨rfl, this⟩⟩
      | false => exact ⟨some (item.item, item.promptUpdates), by simp [nextMissing, flag], .inr rfl⟩
    have itemSize := sizes item mem_cons_self
    obtain ⟨cache', updates, present', handled, maxsize, sizing', serving', members⟩ :=
      senderItem_serving getItemSize sizeOf olds present recent cache sizing serving mmItem item.hash
        (inBatch item mem_cons_self)
        (by
          rintro rfl
          rcases given with ⟨-, held⟩ | given
          · exact held
          · cases given)
        (by
          rintro entry rfl
          rcases given with ⟨given, -⟩ | given
          · cases given
          · cases given
            exact itemSize)
    obtain ⟨next, merged, final, done, sameMax, sizing'', served, knowsAfter, data⟩ :=
      ih (item.hash :: known) present' (LRUCache.moveToEnd recent item.hash) cache' (idx + 1)
        sizing' serving'
        (fun other member => (LRUCache.mem_moveToEnd recent item.hash other.hash).mpr
          (.inr (inBatch other (mem_cons_of_mem item member))))
        (fun other member flag => (members other.hash).mpr
          (.inr (cachedPresent other (mem_cons_of_mem item member) flag)))
        (fun other member => sizes other (mem_cons_of_mem item member))
        (fun hash => by rw [mem_cons, knows hash, members hash])
    refine ⟨next, (if item.hash ∈ present then none else mmItem.map Prod.fst,
      updates.map fun update => recompute update idx) :: merged, final, ?_, sameMax.trans maxsize,
      sizing'', served, knowsAfter, ?_⟩
    · rw [map_cons, mergeItems]
      simp only [passed, handled, done]
    · rw [map_cons, data, sent]
      by_cases held : item.hash ∈ present
      · rw [if_pos held, if_pos ((knows item.hash).mpr held)]
      · rw [if_neg held, if_neg fun isKnown => held ((knows item.hash).mp isKnown)]
        rcases given with ⟨-, inPresent⟩ | rfl
        · exact absurd inPresent held
        · rfl

theorem mergeModalities_serving (sender : LRUCache Hash (Metadata Update)) (olds : List Hash)
    (modalities : List (List (MMItem Hash Item Update))) (known present recent : List Hash)
    (cache : LRUCache Hash (Metadata Update)) (sizing : cache.getsizeof = Metadata.itemSize)
    (serving : LRUCache.Serving sizeOf olds present recent cache)
    (inBatch : ∀ item ∈ modalities.flatten, item.hash ∈ recent)
    (cachedPresent : ∀ item ∈ modalities.flatten, sender.contains item.hash = true →
      item.hash ∈ present)
    (sizes : ∀ item ∈ modalities.flatten, getItemSize item.item = sizeOf item.hash)
    (knows : ∀ hash, hash ∈ known ↔ hash ∈ present) :
    ∃ next merged present', mergeModalities getItemSize recompute
        (modalities.map (missingItems sender)) cache = (next, .ok merged) ∧
      next.maxsize = cache.maxsize ∧ next.getsizeof = Metadata.itemSize ∧
      LRUCache.Serving sizeOf olds present'
        ((modalities.flatten.map MMItem.hash).foldl LRUCache.moveToEnd recent) next ∧
      (∀ hash, hash ∈ knownAfter known modalities.flatten ↔ hash ∈ present') ∧
      merged.flatten.map Prod.fst = sent known modalities.flatten := by
  induction modalities generalizing known present recent cache with
  | nil => exact ⟨cache, [], present, rfl, rfl, sizing, serving, knows, rfl⟩
  | cons items rest ih =>
    rw [flatten_cons] at inBatch cachedPresent sizes ⊢
    obtain ⟨cache', merged, present', handled, maxsize, sizing', serving', knows', data⟩ :=
      mergeItems_serving getItemSize recompute sizeOf sender.contains olds items known present recent
        cache 0 sizing serving
        (fun item member => inBatch item (mem_append_left _ member))
        (fun item member => cachedPresent item (mem_append_left _ member))
        (fun item member => sizes item (mem_append_left _ member)) knows
    obtain ⟨next, others, final, done, sameMax, sizing'', served, knowsAfter, datas⟩ :=
      ih (knownAfter known items) present' _ cache' sizing' serving'
        (fun item member => by
          rw [LRUCache.foldl_moveToEnd]
          by_cases again : item.hash ∈ items.map MMItem.hash
          · exact mem_append_right _ (mem_dedup.mpr again)
          · have := inBatch item (mem_append_right _ member)
            exact mem_append_left _ (mem_filter.mpr ⟨this, decide_eq_true again⟩))
        (fun item member flag => (knows' item.hash).mp <| (mem_knownAfter known items item.hash).mpr
          (.inl ((knows item.hash).mpr (cachedPresent item (mem_append_right _ member) flag))))
        (fun item member => sizes item (mem_append_right _ member)) knows'
    refine ⟨next, merged :: others, final, ?_, sameMax.trans maxsize, sizing'', ?_, ?_, ?_⟩
    · rw [map_cons, missingItems, mergeModalities]
      simp only [handled, done]
    · rw [map_append, foldl_append]
      exact served
    · rw [knownAfter, foldl_append]
      exact knowsAfter
    · rw [flatten_cons, map_append, data, datas, sent_append]

/-- A request that fits is merged: the sender's order is settled and the items that
were not known are sent with their data. -/
theorem mergeMMKwargs_settles {sender : LRUCache Hash (Metadata Update)}
    (sizing : sender.getsizeof = Metadata.itemSize) (tidy : LRUCache.Tidy sizeOf sender)
    {request : Request Hash Item Update}
    (budget : LRUCache.weight sizeOf request.hashes.dedup ≤ sender.maxsize)
    (sizes : ∀ item ∈ request.items, getItemSize item.item = sizeOf item.hash) :
    ∃ next merged, mergeMMKwargs getItemSize recompute sender
        (request.modalities.map (missingItems sender)) = (next, .ok merged) ∧
      next.maxsize = sender.maxsize ∧ next.getsizeof = Metadata.itemSize ∧
      LRUCache.Tidy sizeOf next ∧
      next.order = LRUCache.settled sizeOf sender.maxsize sender.order request.hashes ∧
      merged.flatten.map Prod.fst =
        sent (sender.order.filter fun hash => decide (hash ∈ request.hashes)) request.items := by
  have touched : (request.modalities.map (missingItems sender)).flatMap
      (fun modality => modality.1.map Prod.fst) = request.hashes := by
    simp [Request.hashes, Request.items, missingItems, map_flatten, flatMap_def, comp_def]
  have serving := tidy.touchAll request.hashes budget
  have held (item : MMItem Hash Item Update) (member : item ∈ request.items)
      (flag : sender.contains item.hash = true) :
      item.hash ∈ sender.order.filter fun hash => decide (hash ∈ request.hashes) := by
    obtain ⟨value, found⟩ := Option.isSome_iff_exists.mp flag
    have ordered := (tidy.keys item.hash).mp ((mem_keys_iff sender.data item.hash).mpr ⟨value, found⟩)
    have inRequest : item.hash ∈ request.hashes := mem_map_of_mem member
    simpa using ⟨ordered, inRequest⟩
  obtain ⟨next, merged, present, done, maxsize, sizing', served, knows, data⟩ :=
    mergeModalities_serving getItemSize recompute sizeOf sender _ request.modalities _ _ _
      (sender.touchAll request.hashes) (by rw [LRUCache.touchAll_eq]; exact sizing) serving
      (fun item member => mem_dedup.mpr (mem_map_of_mem member)) held sizes
      (fun hash => Iff.rfl)
  have again : (request.modalities.flatten.map MMItem.hash).foldl LRUCache.moveToEnd
      request.hashes.dedup = request.hashes.dedup := LRUCache.dedup_moveToEnd request.hashes
  rw [again] at served
  have settles := served.settle fun hash member =>
    (knows hash).mp ((mem_knownAfter _ request.items hash).mpr (.inr member))
  have sameMax : next.maxsize = sender.maxsize := maxsize.trans (by rw [LRUCache.touchAll_eq])
  refine ⟨next, merged, ?_, sameMax, sizing', settles.1, ?_, data⟩
  · rw [mergeMMKwargs, touched, done]
  · rw [settles.2, sameMax]

end Serve

/-! The receiver, feature by feature: a feature without data needs a value. -/

def Supplied : List Hash → List (Feature Hash Item) → Prop
  | _, [] => True
  | known, feature :: rest =>
    (feature.data = none → feature.mmHash ∈ known) ∧ Supplied (feature.mmHash :: known) rest

omit [DecidableEq Hash] in
theorem supplied_of (known : List Hash) (features : List (Feature Hash Item))
    (supplied : ∀ before feature after, features = before ++ feature :: after →
      feature.data = none → feature.mmHash ∈ known ∨ feature.mmHash ∈ before.map Feature.mmHash) :
    Supplied known features := by
  induction features generalizing known with
  | nil => trivial
  | cons first rest ih =>
    constructor
    · intro missing
      rcases supplied [] first rest rfl missing with isKnown | before
      · exact isKnown
      · cases before
    · apply ih
      rintro before feature after rfl missing
      rcases supplied (first :: before) feature after rfl missing with isKnown | earlier
      · exact .inl (mem_cons_of_mem _ isKnown)
      · rcases mem_cons.mp earlier with same | earlier
        · exact .inl (same ▸ mem_cons_self)
        · exact .inr earlier

section Receive
variable (getItemSize : Item → Nat) (sizeOf : Hash → Nat)

theorem receiverItem_serving (olds present recent : List Hash) (cache : LRUCache Hash Item)
    (serving : LRUCache.Serving sizeOf olds present recent cache) (mmItem : Option Item)
    (mmHash : Hash) (inBatch : mmHash ∈ recent) (provided : mmItem = none → mmHash ∈ present)
    (size : ∀ item, mmItem = some item → cache.getsizeof item = sizeOf mmHash) :
    ∃ next item present', receiverItem cache mmItem mmHash = (next, .ok item) ∧
      next.maxsize = cache.maxsize ∧ next.getsizeof = cache.getsizeof ∧
      LRUCache.Serving sizeOf olds present' (LRUCache.moveToEnd recent mmHash) next ∧
      ∀ hash, hash ∈ present' ↔ hash = mmHash ∨ hash ∈ present := by
  by_cases held : mmHash ∈ present
  · obtain ⟨value, hit, served⟩ := serving.get_hit mmHash held
    refine ⟨cache.touch mmHash, value, present, ?_, rfl, rfl, served, ?_⟩
    · rw [receiverItem, hit]
    · intro hash
      exact ⟨.inr, fun member => member.elim (fun same => same ▸ held) id⟩
  · cases mmItem with
    | none => exact absurd (provided rfl) held
    | some item =>
      obtain ⟨next, stored, maxsize, getsizeof, served⟩ :=
        serving.setItem mmHash item inBatch held (size item rfl)
      refine ⟨next, item, mmHash :: present, ?_, maxsize, getsizeof, served, ?_⟩
      · have miss : cache.get mmHash = (cache, none) := by
          rw [LRUCache.get, serving.absent mmHash inBatch held]
        rw [receiverItem, miss]
        simp only [stored]
      · intro hash
        exact mem_cons

theorem updateFeatures_serving (olds : List Hash) (features : List (Feature Hash Item))
    (known present recent : List Hash) (cache : LRUCache Hash Item)
    (serving : LRUCache.Serving sizeOf olds present recent cache)
    (inBatch : ∀ feature ∈ features, feature.mmHash ∈ recent)
    (supplied : Supplied known features)
    (sizes : ∀ feature ∈ features, ∀ item, feature.data = some item →
      cache.getsizeof item = sizeOf feature.mmHash)
    (knows : ∀ hash, hash ∈ known ↔ hash ∈ present) :
    ∃ next updated present', updateFeatures features cache = (next, .ok updated) ∧
      next.maxsize = cache.maxsize ∧ next.getsizeof = cache.getsizeof ∧
      LRUCache.Serving sizeOf olds present'
        ((features.map Feature.mmHash).foldl LRUCache.moveToEnd recent) next ∧
      ∀ hash, hash ∈ present' ↔ hash ∈ present ∨ hash ∈ features.map Feature.mmHash := by
  induction features generalizing known present recent cache with
  | nil => exact ⟨cache, [], present, rfl, rfl, rfl, serving, by simp⟩
  | cons feature rest ih =>
    obtain ⟨cache', item, present', handled, maxsize, getsizeof, serving', members⟩ :=
      receiverItem_serving sizeOf olds present recent cache serving feature.data feature.mmHash
        (inBatch feature mem_cons_self)
        (fun missing => (knows feature.mmHash).mp (supplied.1 missing))
        (sizes feature mem_cons_self)
    obtain ⟨next, updated, final, done, sameMax, sameSize, served, all⟩ :=
      ih (feature.mmHash :: known) present' (LRUCache.moveToEnd recent feature.mmHash) cache' serving'
        (fun other member => (LRUCache.mem_moveToEnd recent feature.mmHash other.mmHash).mpr
          (.inr (inBatch other (mem_cons_of_mem feature member))))
        supplied.2
        (fun other member item found => by
          rw [getsizeof]
          exact sizes other (mem_cons_of_mem feature member) item found)
        (fun hash => by rw [mem_cons, knows hash, members hash])
    refine ⟨next, { feature with data := some item } :: updated, final, ?_, sameMax.trans maxsize,
      sameSize.trans getsizeof, served, ?_⟩
    · rw [updateFeatures]
      simp only [handled, done]
    · intro hash
      rw [all hash, members hash, map_cons, mem_cons, or_assoc]
      exact or_left_comm

/-- Features that fit and are supplied are all received, and the order is settled. -/
theorem getAndUpdateFeatures_settles {cache : LRUCache Hash Item} (tidy : LRUCache.Tidy sizeOf cache)
    {features : List (Feature Hash Item)}
    (budget : LRUCache.weight sizeOf (features.map Feature.mmHash).dedup ≤ cache.maxsize)
    (supplied : Supplied
      (cache.order.filter fun hash => decide (hash ∈ features.map Feature.mmHash)) features)
    (sizes : ∀ feature ∈ features, ∀ item, feature.data = some item →
      cache.getsizeof item = sizeOf feature.mmHash) :
    ∃ next updated, getAndUpdateFeatures cache features = (next, .ok updated) ∧
      next.maxsize = cache.maxsize ∧ next.getsizeof = cache.getsizeof ∧
      LRUCache.Tidy sizeOf next ∧
      next.order = LRUCache.settled sizeOf cache.maxsize cache.order (features.map Feature.mmHash) := by
  have serving := tidy.touchAll (features.map Feature.mmHash) budget
  have kept : (cache.touchAll (features.map Feature.mmHash)).maxsize = cache.maxsize ∧
      (cache.touchAll (features.map Feature.mmHash)).getsizeof = cache.getsizeof := by
    rw [LRUCache.touchAll_eq]
    exact ⟨rfl, rfl⟩
  obtain ⟨next, updated, present, done, maxsize, getsizeof, served, all⟩ :=
    updateFeatures_serving sizeOf _ features _ _ _ (cache.touchAll (features.map Feature.mmHash))
      serving (fun feature member => mem_dedup.mpr (mem_map_of_mem member)) supplied
      (by rw [kept.2]; exact sizes) (fun hash => Iff.rfl)
  rw [LRUCache.dedup_moveToEnd] at served
  have settles := served.settle fun hash member => (all hash).mpr (.inr member)
  refine ⟨next, updated, done, maxsize.trans kept.1, getsizeof.trans kept.2, settles.1, ?_⟩
  rw [settles.2, maxsize, kept.1]

end Receive

/-! The prompt order keeps the modality order of two items unless their offsets say
otherwise. -/

theorem argsort_perm (offsets : List Nat) :
    (argsortMMPositions offsets).Perm (List.range offsets.length) := by
  have perm := (perm_insertionSort (fun left right : Nat × Nat => left.1 ≤ right.1)
    offsets.zipIdx).map Prod.snd
  rwa [zipIdx_map_snd, ← range_eq_range'] at perm

theorem argsort_pair (offsets : List Nat) {first second : Nat} (lt : first < second)
    (inside : second < offsets.length) (le : offsets[first] ≤ offsets[second]) :
    [first, second].Sublist (argsortMMPositions offsets) := by
  have pair : [(offsets[first], first), (offsets[second], second)].Sublist offsets.zipIdx := by
    have split : offsets.zipIdx = offsets.zipIdx.take second ++ offsets.zipIdx.drop second :=
      (take_append_drop _ _).symm
    have before : [(offsets[first], first)].Sublist (offsets.zipIdx.take second) := by
      rw [singleton_sublist, mem_take_iff_getElem]
      exact ⟨first, by simp; omega, by simp⟩
    have after : [(offsets[second], second)].Sublist (offsets.zipIdx.drop second) := by
      rw [singleton_sublist, mem_drop_iff_getElem]
      exact ⟨0, by simpa using inside, by simp⟩
    rw [split]
    exact before.append after
  have sorted : [(offsets[first], first), (offsets[second], second)].Sublist
      (offsets.zipIdx.insertionSort fun left right => left.1 ≤ right.1) :=
    pair_sublist_insertionSort le pair
  exact sorted.map Prod.snd

theorem before_of_sublist {α : Type} {first second : α} {before after : List α}
    (pair : [first, second].Sublist (before ++ second :: after))
    (nodup : (before ++ second :: after).Nodup) : first ∈ before := by
  rw [nodup_append, nodup_cons] at nodup
  obtain ⟨left, right, split, inBefore, inAfter⟩ := sublist_append_iff.mp pair
  cases left with
  | nil =>
    -- then the second one is twice in the rest
    subst split
    have again : [second].Sublist after := by
      cases inAfter with
      | cons _ later => exact (sublist_cons_self first [second]).trans later
      | cons_cons _ later => exact later
    exact absurd (singleton_sublist.mp again) nodup.2.1.1
  | cons head rest =>
    rw [cons_append, cons.injEq] at split
    exact split.1 ▸ inBefore.mem mem_cons_self

theorem argsort_mem (offsets : List Nat) (idx : Nat) :
    idx ∈ argsortMMPositions offsets ↔ idx < offsets.length :=
  (argsort_perm offsets).mem_iff.trans mem_range

theorem argsort_nodup (offsets : List Nat) : (argsortMMPositions offsets).Nodup :=
  (argsort_perm offsets).nodup_iff.mpr nodup_range

section Prompt
variable (merged : List (Option Item × List Update)) (items : List (MMItem Hash Item Update))

omit [DecidableEq Hash] in
theorem featureAt_eq (length : merged.length = items.length) {idx : Nat}
    {item : MMItem Hash Item Update} (here : items[idx]? = some item) :
    ∃ data, (merged.map Prod.fst)[idx]? = some data ∧
      featureAt merged items idx = some ⟨data, item.hash, item.offset⟩ := by
  obtain ⟨inside, _⟩ := List.getElem?_eq_some_iff.mp here
  have found : merged[idx]? = some merged[idx] := getElem?_eq_getElem (by omega)
  refine ⟨merged[idx].1, ?_, ?_⟩
  · rw [getElem?_map, found]
    rfl
  · rw [featureAt, found, here]

omit [DecidableEq Hash] in
theorem featureAt_some {idx : Nat} {feature : Feature Hash Item}
    (found : featureAt merged items idx = some feature) :
    ∃ item, items[idx]? = some item ∧ feature.mmHash = item.hash ∧
      (merged.map Prod.fst)[idx]? = some feature.data := by
  rw [featureAt] at found
  split at found
  · rename_i kwargs updates item mergedHere here
    cases found
    refine ⟨item, here, rfl, ?_⟩
    rw [getElem?_map, mergedHere]
    rfl
  · cases found

omit [DecidableEq Hash] in
theorem mmFeatures_hashes (length : merged.length = items.length) :
    (mmFeatures merged items).map Feature.mmHash =
      (argsortMMPositions (items.map MMItem.offset)).filterMap fun idx =>
        (items.map MMItem.hash)[idx]? := by
  rw [mmFeatures, map_filterMap]
  apply filterMap_congr
  intro idx member
  have inside : idx < items.length := by simpa using (argsort_mem _ idx).mp member
  obtain ⟨data, -, eq⟩ := featureAt_eq merged items length (getElem?_eq_getElem inside)
  simp [eq, inside]

/-- The features are supplied when every item that is not known has, at an offset
that is not larger, the first item of its hash. -/
theorem mmFeatures_supplied {known : List Hash} (length : merged.length = items.length)
    (data : merged.map Prod.fst = sent known items)
    (firsts : ∀ item ∈ items, ∀ first,
      items.find? (fun other => decide (other.hash = item.hash)) = some first →
        item.hash ∈ known ∨ first.offset ≤ item.offset) :
    Supplied known (mmFeatures merged items) := by
  apply supplied_of
  intro before feature after split missing
  obtain ⟨left, right, places, beforePlaces, afterPlaces⟩ := filterMap_eq_append_iff.mp split
  obtain ⟨skipped, place, later, places', skips, here, -⟩ := filterMap_eq_cons_iff.mp afterPlaces
  obtain ⟨item, itemHere, hash, dataHere⟩ := featureAt_some merged items here
  rw [hash]
  rw [missing, data] at dataHere
  rcases sent_none known items place item itemHere dataHere with isKnown | earlier
  · exact .inl isKnown
  obtain ⟨inside, atPlace⟩ := List.getElem?_eq_some_iff.mp itemHere
  obtain ⟨other, inTake, sameHash⟩ := mem_map.mp earlier
  -- the first item of the hash, before this one in the modality order
  obtain ⟨first, found⟩ : ∃ first,
      items.find? (fun other => decide (other.hash = item.hash)) = some first := by
    apply Option.isSome_iff_exists.mp
    exact find?_isSome.mpr ⟨item, atPlace ▸ getElem_mem inside, by simp⟩
  rcases firsts item (atPlace ▸ getElem_mem inside) first found with isKnown | le
  · exact .inl isKnown
  obtain ⟨firstHash, position, within, atPosition, noneBefore⟩ := find?_eq_some_iff_getElem.mp found
  simp only [decide_eq_true_eq] at firstHash
  have lt : position < place := by
    obtain ⟨j, bound, atJ⟩ := mem_take_iff_getElem.mp inTake
    by_contra notBefore
    have := noneBefore j (by omega)
    rw [atJ] at this
    simp [sameHash] at this
  have pair := argsort_pair (items.map MMItem.offset) lt (by simpa using inside)
    (by simpa [atPosition, atPlace] using le)
  have whole : argsortMMPositions (items.map MMItem.offset) =
      (left ++ skipped) ++ place :: later := by
    rw [places, places', append_assoc]
  have nodup := argsort_nodup (items.map MMItem.offset)
  rw [whole] at pair nodup
  obtain ⟨firstData, -, eq⟩ := featureAt_eq merged items length
    (List.getElem?_eq_some_iff.mpr ⟨within, atPosition⟩)
  right
  rcases mem_append.mp (before_of_sublist pair nodup) with inLeft | inSkipped
  · apply mem_map.mpr
    refine ⟨⟨firstData, first.hash, first.offset⟩, ?_, firstHash⟩
    rw [← beforePlaces]
    exact mem_filterMap.mpr ⟨position, inLeft, eq⟩
  · rw [skips position inSkipped] at eq
    cases eq

end Prompt

/-! Both caches hold the same keys in the same order between requests. -/

structure Mirrored (getItemSize : Item → Nat) (sizeOf : Hash → Nat)
    (system : System Hash Item Update) : Prop where
  sender : LRUCache.Tidy sizeOf system.sender
  receiver : LRUCache.Tidy sizeOf system.receiver
  order : system.receiver.order = system.sender.order
  maxsize : system.receiver.maxsize = system.sender.maxsize
  senderSize : system.sender.getsizeof = Metadata.itemSize
  receiverSize : system.receiver.getsizeof = getItemSize

section Run
variable (getItemSize : Item → Nat) (recompute : Update → Nat → Update) (sizeOf : Hash → Nat)

theorem mirrored_init (maxsize : Nat) :
    Mirrored getItemSize sizeOf (System.init getItemSize maxsize : System Hash Item Update) where
  sender := LRUCache.tidy_empty
  receiver := LRUCache.tidy_empty
  order := rfl
  maxsize := rfl
  senderSize := rfl
  receiverSize := rfl

theorem settled_congr (maxsize : Nat) (order left right : List Hash)
    (same : left.dedup = right.dedup) :
    LRUCache.settled sizeOf maxsize order left = LRUCache.settled sizeOf maxsize order right := by
  have members (hash : Hash) : hash ∈ left ↔ hash ∈ right := by
    rw [← mem_dedup, same, mem_dedup]
  simp only [LRUCache.settled, same, members]

/-- A rejected request that is aligned changes nothing on P0. -/
theorem rejected_mirrored (system : System Hash Item Update) (request : Request Hash Item Update)
    (mirrored : Mirrored getItemSize sizeOf system)
    (sizes : ∀ item ∈ request.items, getItemSize item.item = sizeOf item.hash)
    (rejected : request.rejected = true) (recent : request.hashes.dedup <:+ system.sender.order) :
    ∃ next, system.process getItemSize recompute request = some next ∧
      Mirrored getItemSize sizeOf next ∧ next.arrived = system.arrived := by
  have budget : LRUCache.weight sizeOf request.hashes.dedup ≤ system.sender.maxsize :=
    (LRUCache.weight_subset sizeOf (nodup_dedup _) fun _ => recent.mem).trans mirrored.sender.fits
  obtain ⟨sender, merged, done, maxsize, sizing, tidy, order, -⟩ := mergeMMKwargs_settles getItemSize
    recompute sizeOf mirrored.senderSize mirrored.sender budget sizes
  rw [mirrored.sender.settled_suffix request.hashes recent] at order
  refine ⟨{ system with sender := sender }, ?_, ?_, rfl⟩
  · rw [System.process, done]
    simp only [rejected, ↓reduceIte]
  · constructor
    · exact tidy
    · exact mirrored.receiver
    · exact mirrored.order.trans order.symm
    · exact mirrored.maxsize.trans maxsize.symm
    · exact sizing
    · exact mirrored.receiverSize

theorem delivered_mirrored (system : System Hash Item Update) (request : Request Hash Item Update)
    (mirrored : Mirrored getItemSize sizeOf system)
    (sizes : ∀ item ∈ request.items, getItemSize item.item = sizeOf item.hash)
    (delivered : request.rejected = false)
    (budget : LRUCache.weight sizeOf request.hashes.dedup ≤ system.sender.maxsize)
    (samePrompt : request.promptHashes.dedup = request.hashes.dedup)
    (firsts : ∀ item ∈ request.items, ∀ first,
      request.items.find? (fun other => decide (other.hash = item.hash)) = some first →
        system.sender.contains item.hash = true ∨ first.offset ≤ item.offset) :
    ∃ next features, system.process getItemSize recompute request = some next ∧
      Mirrored getItemSize sizeOf next ∧ next.arrived = system.arrived ++ [.ok features] := by
  obtain ⟨sender, merged, done, maxsize, sizing, tidy, order, data⟩ := mergeMMKwargs_settles getItemSize
    recompute sizeOf mirrored.senderSize mirrored.sender budget sizes
  have length : merged.flatten.length = request.items.length := by
    have := congrArg length data
    rwa [length_map, sent_length] at this
  have prompt : (mmFeatures merged.flatten request.items).map Feature.mmHash = request.promptHashes :=
    mmFeatures_hashes merged.flatten request.items length
  have members (hash : Hash) : hash ∈ request.promptHashes ↔ hash ∈ request.hashes := by
    rw [← mem_dedup, samePrompt, mem_dedup]
  have supplied := mmFeatures_supplied merged.flatten request.items length data
    (by
      intro item member first found
      rcases firsts item member first found with held | le
      · obtain ⟨value, found⟩ := Option.isSome_iff_exists.mp held
        have ordered := (mirrored.sender.keys item.hash).mp
          ((mem_keys_iff system.sender.data item.hash).mpr ⟨value, found⟩)
        have inRequest : item.hash ∈ request.hashes := mem_map_of_mem member
        exact .inl (by simpa using ⟨ordered, inRequest⟩)
      · exact .inr le)
  have featureSizes (feature : Feature Hash Item)
      (member : feature ∈ mmFeatures merged.flatten request.items) (item : Item)
      (found : feature.data = some item) : system.receiver.getsizeof item = sizeOf feature.mmHash := by
    obtain ⟨idx, -, here⟩ := mem_filterMap.mp member
    obtain ⟨mmItem, atIdx, hash, sentHere⟩ := featureAt_some merged.flatten request.items here
    rw [data, found] at sentHere
    obtain ⟨other, atIdx', rfl⟩ := sent_some _ request.items idx item sentHere
    rw [atIdx] at atIdx'
    cases atIdx'
    rw [mirrored.receiverSize, hash]
    exact sizes mmItem (mem_of_getElem? atIdx)
  obtain ⟨receiver, updated, received, receiverMax, receiverSize, receiverTidy, receiverOrder⟩ :=
    getAndUpdateFeatures_settles sizeOf mirrored.receiver
      (by rw [prompt, samePrompt, mirrored.maxsize]; exact budget)
      (by simpa only [prompt, members, mirrored.order] using supplied) featureSizes
  refine ⟨⟨sender, receiver, system.arrived ++ [.ok updated]⟩, updated, ?_, ?_, rfl⟩
  · rw [System.process, done]
    simp only [delivered, Bool.false_eq_true, ↓reduceIte, received]
  · constructor
    · exact tidy
    · exact receiverTidy
    · rw [receiverOrder, order, prompt, mirrored.order, mirrored.maxsize]
      exact settled_congr sizeOf _ _ _ _ samePrompt
    · exact receiverMax.trans (mirrored.maxsize.trans maxsize.symm)
    · exact sizing
    · exact receiverSize.trans mirrored.receiverSize

/-- Every outcome on P1 is a request that got all its items. -/
def System.AllFound (system : System Hash Item Update) : Prop :=
  ∀ outcome ∈ system.arrived, ∃ features, outcome = .ok features

theorem process_mirrored (system : System Hash Item Update) (request : Request Hash Item Update)
    (mirrored : Mirrored getItemSize sizeOf system) (found : system.AllFound)
    (sizes : ∀ item ∈ request.items, getItemSize item.item = sizeOf item.hash)
    (aligned : request.Aligned sizeOf system) :
    ∃ next, system.process getItemSize recompute request = some next ∧
      Mirrored getItemSize sizeOf next ∧ next.AllFound := by
  rw [Request.Aligned] at aligned
  cases rejected : request.rejected with
  | true =>
    rw [rejected] at aligned
    obtain ⟨next, done, mirrored', same⟩ :=
      rejected_mirrored getItemSize recompute sizeOf system request mirrored sizes rejected aligned
    refine ⟨next, done, mirrored', ?_⟩
    rw [System.AllFound, same]
    exact found
  | false =>
    rw [rejected] at aligned
    obtain ⟨budget, samePrompt, firsts⟩ := aligned
    obtain ⟨next, features, done, mirrored', arrives⟩ := delivered_mirrored getItemSize recompute
      sizeOf system request mirrored sizes rejected budget samePrompt firsts
    refine ⟨next, done, mirrored', ?_⟩
    rw [System.AllFound, arrives]
    intro outcome member
    rcases mem_append.mp member with before | new
    · exact found outcome before
    · exact ⟨features, mem_singleton.mp new⟩

theorem run_mirrored (requests : List (Request Hash Item Update)) (system : System Hash Item Update)
    (mirrored : Mirrored getItemSize sizeOf system) (found : system.AllFound)
    (sizes : ∀ request ∈ requests, ∀ item ∈ request.items, getItemSize item.item = sizeOf item.hash)
    (aligned : AlignedRun getItemSize recompute sizeOf system requests) :
    ∃ final, system.run getItemSize recompute requests = some final ∧ final.AllFound := by
  induction requests generalizing system with
  | nil => exact ⟨system, rfl, found⟩
  | cons request rest ih =>
    obtain ⟨next, done, mirrored', found'⟩ := process_mirrored getItemSize recompute sizeOf system
      request mirrored found (sizes request mem_cons_self) aligned.1
    obtain ⟨final, reached, allFound⟩ := ih next mirrored' found'
      (fun other member => sizes other (mem_cons_of_mem request member)) (aligned.2 next done)
    refine ⟨final, ?_, allFound⟩
    rw [System.run, done]
    exact reached

/-- In a run of aligned requests both caches always come back, and P1 finds every item
that is sent without its data. -/
theorem mirror_finds_all (maxsize : Nat) (requests : List (Request Hash Item Update))
    (sizes : ∀ request ∈ requests, ∀ item ∈ request.items, getItemSize item.item = sizeOf item.hash)
    (aligned : AlignedRun getItemSize recompute sizeOf (System.init getItemSize maxsize) requests) :
    ∃ final, (System.init getItemSize maxsize).run getItemSize recompute requests = some final ∧
      ∀ outcome ∈ final.arrived, ∃ features, outcome = .ok features :=
  run_mirrored getItemSize recompute sizeOf requests _ (mirrored_init getItemSize sizeOf maxsize)
    (by rintro _ ⟨⟩) sizes aligned

end Run

/-! Items of size one, named by their hash. -/

def plainItem (hash offset : Nat) : MMItem Nat Nat Nat := ⟨hash, hash, [], offset⟩

def loneItem (hash : Nat) : Request Nat Nat Nat := ⟨[[plainItem hash 0]], false⟩

/-- An image and a video, with the video first in the prompt. -/
def crossed (image video : Nat) : Request Nat Nat Nat :=
  ⟨[[plainItem image 5], [plainItem video 0]], false⟩

/-- A cache that is full, a request that evicts, a repeated item, and one that is
rejected but the most recent already. -/
def steadyRun : List (Request Nat Nat Nat) :=
  [loneItem 0, ⟨[[plainItem 1 0, plainItem 0 3, plainItem 1 6]], false⟩, loneItem 2,
    { loneItem 2 with rejected := true }, loneItem 1]

theorem steadyRun_finds_all :
    ∃ final, (System.init (fun _ => 1) 2).run (fun _ => 1) (fun update _ => update) steadyRun =
        some final ∧
      ∀ outcome ∈ final.arrived, ∃ features, outcome = .ok features :=
  mirror_finds_all (fun _ => 1) (fun update _ => update) (fun _ => 1) 2 steadyRun
    (fun _ _ _ _ => rfl) (by decide)

/-- The touches of a rejected request are seen on P0 only, and items of two modalities
are touched on P1 in the order of the prompt: a later item is missed. -/
theorem item_missed :
    (∃ final, (System.init (fun _ => 1) 2).run (fun _ => 1) (fun update _ => update)
        [loneItem 0, loneItem 1, { loneItem 0 with rejected := true }, loneItem 2, loneItem 0] =
          some final ∧
      final.arrived.getLast? = some (.error .expectedCached)) ∧
    ∃ final, (System.init (fun _ => 1) 2).run (fun _ => 1) (fun update _ => update)
        [crossed 0 1, loneItem 2, loneItem 1] = some final ∧
      final.arrived.getLast? = some (.error .expectedCached) :=
  ⟨⟨_, rfl, rfl⟩, ⟨_, rfl, rfl⟩⟩

end VllmDcu.CacheMirror

import VllmDcu.MultiModalHashes
import VllmDcu.BlockPool

/-! Whether the extra keys of a block depend on the item cursor that its caller starts
with: 0 for a new request, -1 for blocks that generated tokens complete, and 0 again at
the first block that the pool stores. They agree exactly when no item ends between two
blocks and all items but the last end within the blocks that are hashed at first. -/
namespace VllmDcu.CursorKeys
open Requests FreeBlockQueue BlockPool HashChain BlockHashes MultiModalHashes List Option Function
variable {Digest : Type}

/-- The extra keys of `count` blocks from block `first` on, in one pass of the cursor. -/
def passKeys (request : Request Digest) (blockSize : Nat) :
    Nat → Nat → Int → List (Option (List (ExtraKey Digest)))
  | 0, _, _ => []
  | count + 1, first, currMmIdx =>
    let extra := generateBlockHashExtraKeys request (first * blockSize) ((first + 1) * blockSize)
      currMmIdx
    extra.1 :: passKeys request blockSize count (first + 1) extra.2

variable (blockSize : Nat)

/-- The keys of a pass that starts as the callers start it. -/
theorem passKeys_eq (first : Nat) (positive : 0 < blockSize) (request : Request Digest)
    (ordered : Ordered request.mmFeatures) (count index : Nat) (cursor : Int)
    (reached : first ≤ index) (placed : CursorAt blockSize first request.mmFeatures index cursor) :
    passKeys request blockSize count index cursor = (List.range count).map fun offset =>
      flatKeys blockSize first (identityOf request) request.mmFeatures (index + offset) := by
  induction count generalizing index cursor with
  | zero => rfl
  | succ count ih =>
    obtain ⟨next, items, placedNext⟩ := itemKeys_step blockSize ordered reached placed
    have keys := extraKeys_eq blockSize positive items
    have shift : (fun offset => flatKeys blockSize first (identityOf request) request.mmFeatures
        (index + (offset + 1))) = fun offset => flatKeys blockSize first (identityOf request)
          request.mmFeatures (index + 1 + offset) := by
      funext offset
      rw [Nat.add_right_comm, Nat.add_assoc]
    simp only [passKeys, keys]
    rw [ih (index + 1) next (Nat.le_succ_of_le reached) placedNext, range_succ_eq_map,
      map_cons, List.map_map, ← shift]
    rfl

/-- The keys of a block when all blocks are hashed in one pass. -/
def onePassKeys (request : Request Digest) (blockSize index : Nat) :
    Option (Option (List (ExtraKey Digest))) :=
  (passKeys request blockSize (index + 1) 0 0)[index]?

theorem onePassKeys_eq (positive : 0 < blockSize) (request : Request Digest)
    (ordered : Ordered request.mmFeatures) (index : Nat) :
    onePassKeys request blockSize index =
      some (flatKeys blockSize 0 (identityOf request) request.mmFeatures index) := by
  rw [onePassKeys, passKeys_eq blockSize 0 positive request ordered (index + 1) 0 0 (Nat.le_refl 0)
    (.start rfl rfl), getElem?_map, getElem?_range (Nat.lt_succ_self index), map_some,
    Nat.zero_add]

/-! What the callers have in common. -/

/-- The blocks that `cache_full_blocks` stores, with their indices. -/
def storedBlocks (blocks : List BlockId) (numCachedBlocks numFullBlocks : Nat) :
    List (BlockId × Nat) :=
  (blocks.zipIdx.take numFullBlocks).drop numCachedBlocks

/-- The tokens of a request after some appends. -/
def appendAll (request : Request Digest) (chunks : List (List Token)) : Request Digest :=
  chunks.foldl Request.appendOutputTokenIds request

/-- The extra keys of every block are those of one pass over all blocks, however the block is
reached, and so are the hashes. -/
structure CursorFree (hasher : BlockHasher Digest) (pool : Pool Digest) (request : Request Digest) :
    Prop where
  incremental : ∀ first count, 0 < first → request.numTokens / hasher.blockSize ≤ first →
    (passKeys request hasher.blockSize count first (-1)).map some =
      (List.range count).map fun offset =>
        onePassKeys request hasher.blockSize (first + offset)
  stored : ∀ blocks numCachedBlocks numFullBlocks,
    (pool.extraKeysLoop request hasher.blockSize
        (storedBlocks blocks numCachedBlocks numFullBlocks) 0).map some =
      ((storedBlocks blocks numCachedBlocks numFullBlocks).filter
        fun entry => !pool.isNull entry.1).map fun entry =>
          onePassKeys request hasher.blockSize entry.2
  hashes : ∀ chunks, (appendAll request chunks).blockHashes =
    requestBlockHasher hasher { appendAll request chunks with blockHashes := [] }

/-- No item ends between two blocks, and all items but the last end within the blocks that are
hashed when the request is created, or within the first block. -/
structure Clear (blockSize numHashed : Nat) (features : List MultiModalFeatureSpec) : Prop where
  inner : ∀ item ∈ features, item.mmPosition.offset < itemEnd item → ¬ blockSize ∣ itemEnd item
  early : ∀ item ∈ features.dropLast, passed (max numHashed 1 * blockSize) item = true

instance (blockSize numHashed : Nat) (features : List MultiModalFeatureSpec) :
    Decidable (Clear blockSize numHashed features) :=
  decidable_of_iff ((∀ item ∈ features, item.mmPosition.offset < itemEnd item →
      ¬ blockSize ∣ itemEnd item) ∧
    ∀ item ∈ features.dropLast, passed (max numHashed 1 * blockSize) item = true)
    ⟨fun both => ⟨both.1, both.2⟩, fun clear => ⟨clear.inner, clear.early⟩⟩

/-! The condition is enough. -/

variable (numHashed : Nat)

/-- An item that meets a block after the first has not ended before it. -/
theorem meets_unpassed {features : List MultiModalFeatureSpec}
    (clear : Clear blockSize numHashed features) {index upTo : Nat}
    (within : upTo ≤ index * blockSize) {item : MultiModalFeatureSpec} (member : item ∈ features)
    (met : meets (index * blockSize) ((index + 1) * blockSize) item = true) :
    passed upTo item = false := by
  rw [meets_iff] at met
  rw [← Bool.not_eq_true, passed_iff]
  rintro ⟨begun, ended⟩
  have same : itemEnd item = index * blockSize := by omega
  exact clear.inner item member (by omega) (same ▸ Nat.dvd_mul_left blockSize index)

theorem touches_meets {first : Nat} {features : List MultiModalFeatureSpec}
    (clear : Clear blockSize numHashed features) {index : Nat} {item : MultiModalFeatureSpec}
    (member : item ∈ features) :
    touches blockSize first index item =
      meets (index * blockSize) ((index + 1) * blockSize) item := by
  unfold touches
  cases met : meets (index * blockSize) ((index + 1) * blockSize) item with
  | false => rfl
  | true =>
    rw [meets_unpassed blockSize numHashed clear
      (Nat.le_refl _) member met]
    simp

/-- A batch that sees only the last item misses no other. -/
theorem itemKeys_clear {first : Nat} {features : List MultiModalFeatureSpec}
    (clear : Clear blockSize numHashed features) (late : max numHashed 1 ≤ first) {index : Nat}
    (reached : first ≤ index) :
    itemKeys blockSize first features index = itemKeys blockSize 0 features index := by
  have zero : first ≠ 0 := by omega
  simp only [itemKeys, eligible, if_neg zero, if_pos]
  congr 1
  cases given : features.getLast? with
  | none =>
    rw [getLast?_eq_none_iff.mp given]
    rfl
  | some last =>
    obtain ⟨before, split⟩ := getLast?_eq_some_iff.mp given
    have inLast : last ∈ features := mem_of_getLast? given
    have none : before.filter (touches blockSize 0 index) = [] := by
      rw [filter_eq_nil_iff]
      intro item member
      have inAll : item ∈ features := by
        rw [split]
        exact mem_append_left _ member
      rw [touches_meets blockSize numHashed clear inAll]
      intro met
      have gone := clear.early item (by rwa [split, dropLast_concat])
      have unpassed := meets_unpassed blockSize numHashed clear (Nat.mul_le_mul_right _ (Nat.le_trans late reached))
        inAll met
      rw [gone] at unpassed
      contradiction
    rw [split, filter_append, none]
    change [last].filter _ = [last].filter _
    rw [filter_cons, filter_cons, touches_meets blockSize numHashed clear inLast, touches_meets blockSize numHashed clear inLast]
    rfl

theorem flatKeys_clear (first : Nat) (identity : Identity Digest)
    (features : List MultiModalFeatureSpec) (clear : Clear blockSize numHashed features)
    (late : max numHashed 1 ≤ first) (index : Nat) (reached : first ≤ index) :
    flatKeys blockSize first identity features index =
      flatKeys blockSize 0 identity features index := by
  unfold flatKeys
  rw [itemKeys_clear blockSize numHashed clear late reached]

/-- The cursor has left behind the items that end up to a position. -/
def Behind (features : List MultiModalFeatureSpec) (upTo : Nat) (cursor : Int) : Prop :=
  ∃ position : Nat, cursor = position ∧
    features.drop position = features.filter fun item => !passed upTo item

variable (request : Request Digest)

/-- A scan of any block from a cursor that is not ahead of it. -/
theorem behind_step (ordered : Ordered request.mmFeatures)
    (clear : Clear blockSize numHashed request.mmFeatures) {index upTo : Nat}
    (within : upTo ≤ index * blockSize) {cursor : Int}
    (behind : Behind request.mmFeatures upTo cursor) :
    ∃ next upTo', genMmExtraHashKeys request (index * blockSize) ((index + 1) * blockSize) cursor =
        (itemKeys blockSize 0 request.mmFeatures index, next) ∧
      upTo' ≤ (index + 1) * blockSize ∧ Behind request.mmFeatures upTo' next := by
  have forward : index * blockSize ≤ (index + 1) * blockSize :=
    Nat.mul_le_mul_right _ (Nat.le_succ _)
  have keys : itemKeys blockSize 0 request.mmFeatures index =
      (request.mmFeatures.filter (meets (index * blockSize) ((index + 1) * blockSize))).map
        (·.identifier) := by
    simp only [itemKeys, eligible, if_pos]
    congr 1
    exact filter_congr fun item member =>
      touches_meets blockSize numHashed clear member
  obtain ⟨position, value, ahead⟩ := behind
  cases given : request.mmFeatures.getLast? with
  | none =>
    have empty := getLast?_eq_none_iff.mp given
    refine ⟨cursor, upTo, ?_, Nat.le_trans within forward, position, value, ahead⟩
    simp [genMmExtraHashKeys, itemKeys, eligible, empty]
  | some last =>
    by_cases past : itemEnd last < index * blockSize
    · have missed : request.mmFeatures.filter
          (meets (index * blockSize) ((index + 1) * blockSize)) = [] := by
        refine filter_eq_nil_iff.mpr fun item member => ?_
        have := itemEnd_le_last _ ordered last given item member
        rw [meets_iff]
        omega
      refine ⟨cursor, upTo, ?_, Nat.le_trans within forward, position, value, ahead⟩
      rw [itemEnd] at past
      simp [genMmExtraHashKeys, given, past, keys, missed]
    · obtain ⟨scanned, dropped⟩ := scan_from blockSize index request.mmFeatures _ position ordered
        ahead
      refine ⟨_, (index + 1) * blockSize, ?_, Nat.le_refl _, _, rfl, dropped.trans ?_⟩
      · rw [itemEnd] at past
        simp only [genMmExtraHashKeys, given, past, ↓reduceIte, value,
          if_neg (Int.not_lt.mpr (Int.natCast_nonneg position)), Int.toNat_natCast, ahead, scanned,
          keys, Prod.mk.injEq, and_true]
        rw [List.filter_filter]
        congr 1
        refine filter_congr fun item member => ?_
        cases met : meets (index * blockSize) ((index + 1) * blockSize) item with
        | false => rfl
        | true =>
          rw [meets_unpassed blockSize numHashed clear within
            member met]
          rfl
      · rw [List.filter_filter]
        congr 1
        funext item
        cases done : passed upTo item with
        | true => simp [passed_mono (Nat.le_trans within forward) done]
        | false => simp

theorem extraKeysLoop_clear (positive : 0 < blockSize) (pool : Pool Digest)
    (request : Request Digest) (ordered : Ordered request.mmFeatures)
    (clear : Clear blockSize numHashed request.mmFeatures) (entries : List (BlockId × Nat))
    (increasing : entries.Pairwise fun first second => first.2 < second.2) (upTo : Nat)
    (within : ∀ entry ∈ entries, upTo ≤ entry.2 * blockSize) (cursor : Int)
    (behind : Behind request.mmFeatures upTo cursor) :
    (pool.extraKeysLoop request blockSize entries cursor).map some =
      (entries.filter fun entry => !pool.isNull entry.1).map fun entry =>
        onePassKeys request blockSize entry.2 := by
  induction entries generalizing upTo cursor with
  | nil => rfl
  | cons entry rest ih =>
    obtain ⟨block, index⟩ := entry
    obtain ⟨after, increasingRest⟩ := pairwise_cons.mp increasing
    have withinRest : ∀ other ∈ rest, upTo ≤ other.2 * blockSize :=
      fun other member => within other (mem_cons_of_mem _ member)
    by_cases null : pool.isNull block = true
    · simp only [Pool.extraKeysLoop, null, ↓reduceIte, filter_cons, Bool.not_true,
        Bool.false_eq_true]
      exact ih increasingRest upTo withinRest cursor behind
    · obtain ⟨next, upTo', items, atMost, behindNext⟩ := behind_step blockSize numHashed request
        ordered clear (within _ mem_cons_self) behind
      have keys := extraKeys_eq blockSize positive items
      rw [Nat.succ_mul] at keys
      simp only [Pool.extraKeysLoop, Bool.eq_false_iff.mpr null, Bool.false_eq_true, ↓reduceIte,
        filter_cons, Bool.not_false, map_cons, keys,
        onePassKeys_eq blockSize positive request ordered index]
      rw [ih increasingRest upTo' ?_ next behindNext]
      intro other member
      exact Nat.le_trans atMost (Nat.mul_le_mul_right _ (after other member))

theorem storedBlocks_increasing (blocks : List BlockId) (numCachedBlocks numFullBlocks : Nat) :
    (storedBlocks blocks numCachedBlocks numFullBlocks).Pairwise fun first second =>
      first.2 < second.2 := by
  have all : blocks.zipIdx.Pairwise fun first second => first.2 < second.2 := by
    rw [pairwise_iff_getElem]
    simp
  exact (all.sublist (take_sublist _ _)).sublist (drop_sublist _ _)

/-! Hashes in parts. -/

/-- The keys of all blocks in one pass. -/
def allKeys (hasher : BlockHasher Digest) (request : Request Digest) : Labels Digest :=
  flatKeys hasher.blockSize 0 (identityOf request) request.mmFeatures

variable (hasher : BlockHasher Digest)

/-- From the hashes of the first tokens, hashing goes on with the keys of one pass. -/
theorem updateBlockHashes_hashesOf (positive : 0 < hasher.blockSize) {numHashed : Nat}
    (request : Request Digest) (given : request.blockHasher = some hasher)
    (ordered : Ordered request.mmFeatures)
    (clear : Clear hasher.blockSize numHashed request.mmFeatures) (before : List Token)
    (sofar : request.blockHashes = digests hasher.cachingHashFn hasher.noneHash
      (payloads hasher.blockSize (allKeys hasher request) before))
    (extended : before <+: request.allTokenIds)
    (late : before = [] ∨ numHashed ≤ before.length / hasher.blockSize) :
    HashesOf hasher (allKeys hasher request) request.updateBlockHashes := by
  let first := before.length / hasher.blockSize
  have length : (payloads hasher.blockSize (allKeys hasher request) before).length = first :=
    payloads_length _ _ _
  have updated := updateBlockHashes_eq hasher request positive given _ sofar
    (flatKeys hasher.blockSize first (identityOf request) request.mmFeatures)
    (CursorAt hasher.blockSize first request.mmFeatures)
    (.start length (by rw [length]))
    (fun index cursor reached placed => by
      rw [length] at reached
      obtain ⟨next, items, kept⟩ := itemKeys_step hasher.blockSize ordered reached placed
      exact ⟨next, extraKeys_eq _ positive items, kept⟩)
  rw [length] at updated
  -- The blocks so far are a prefix, and the later ones get the keys of one pass.
  have prefixed : payloads hasher.blockSize (allKeys hasher request) before =
      (payloads hasher.blockSize (allKeys hasher request) request.allTokenIds).take first := by
    obtain ⟨later, whole⟩ := extended
    have fits : first * hasher.blockSize ≤ before.length := Nat.div_mul_le_self _ _
    rw [← payloads_prefix hasher.blockSize (allKeys hasher request)
      positive fits (by rw [← whole, take_append_of_le_length fits]),
      take_of_length_le (Nat.le_of_eq length)]
  have later : (payloads hasher.blockSize
        (flatKeys hasher.blockSize first (identityOf request) request.mmFeatures)
        request.allTokenIds).drop first =
      (payloads hasher.blockSize (allKeys hasher request) request.allTokenIds).drop first := by
    apply ext_getElem?
    intro offset
    rw [getElem?_drop, getElem?_drop, payloads_getElem?, payloads_getElem?]
    have same : flatKeys hasher.blockSize first (identityOf request) request.mmFeatures
        (first + offset) = allKeys hasher request (first + offset) := by
      by_cases zero : first = 0
      · rw [zero, allKeys]
      · have some : before ≠ [] := by
          rintro rfl
          exact zero (Nat.zero_div _)
        have least : numHashed ≤ first := late.resolve_left some
        exact flatKeys_clear hasher.blockSize numHashed first _ _ clear (by omega) _
          (Nat.le_add_right _ _)
    rw [same]
  change request.updateBlockHashes.blockHashes = _
  rw [updated, later, prefixed, take_append_drop]
  rfl

/-- What a request keeps while tokens are appended. -/
structure Hashing (hasher : BlockHasher Digest) (numHashed : Nat) (request : Request Digest) :
    Prop where
  given : request.blockHasher = some hasher
  ordered : Ordered request.mmFeatures
  clear : Clear hasher.blockSize numHashed request.mmFeatures
  hashes : HashesOf hasher (allKeys hasher request) request
  late : numHashed ≤ request.numTokens / hasher.blockSize

theorem appendOutputTokenIds_hashing (positive : 0 < hasher.blockSize) {numHashed : Nat}
    {request : Request Digest} (hashing : Hashing hasher numHashed request)
    {tokenIds : List Token} :
    Hashing hasher numHashed (request.appendOutputTokenIds tokenIds) := by
  constructor
  · exact hashing.given
  · exact hashing.ordered
  · exact hashing.clear
  · exact updateBlockHashes_hashesOf hasher positive
      { request with
        outputTokenIds := request.outputTokenIds ++ tokenIds
        allTokenIds := request.allTokenIds ++ tokenIds } hashing.given hashing.ordered
      hashing.clear request.allTokenIds hashing.hashes (prefix_append _ _)
      (Or.inr hashing.late)
  · apply Nat.le_trans hashing.late
    apply Nat.div_le_div_right
    change request.allTokenIds.length ≤ (request.allTokenIds ++ tokenIds).length
    rw [length_append]
    exact Nat.le_add_right _ _

theorem appendAll_hashing (positive : 0 < hasher.blockSize) (numHashed : Nat)
    (request : Request Digest) (hashing : Hashing hasher numHashed request)
    (chunks : List (List Token)) : Hashing hasher numHashed (appendAll request chunks) := by
  induction chunks generalizing request with
  | nil => exact hashing
  | cons tokenIds rest ih =>
    exact ih _ (appendOutputTokenIds_hashing hasher positive hashing)

/-- One batch over all tokens gives the same hashes. -/
theorem hashing_oneBatch (positive : 0 < hasher.blockSize) (numHashed : Nat)
    (request : Request Digest) (hashing : Hashing hasher numHashed request) :
    request.blockHashes = requestBlockHasher hasher { request with blockHashes := [] } := by
  have whole := updateBlockHashes_hashesOf hasher positive
    { request with blockHashes := [] } hashing.given hashing.ordered hashing.clear []
    (by rw [payloads]; simp [digests]) nil_prefix (Or.inl rfl)
  have fresh : ({ request with blockHashes := [] } : Request Digest).updateBlockHashes.blockHashes =
      requestBlockHasher hasher { request with blockHashes := [] } := by
    simp only [Request.updateBlockHashes, Request.newBlockHashes, hashing.given, nil_append]
  rw [← fresh, hashing.hashes]
  exact whole.symm

/-! The condition is needed. -/

/-- Equal extra keys of one block have equal item keys. -/
theorem extraKeys_items {startTokenIdx endTokenIdx : Nat} {cursor cursor' : Int}
    (same : (generateBlockHashExtraKeys request startTokenIdx endTokenIdx cursor).1 =
      (generateBlockHashExtraKeys request startTokenIdx endTokenIdx cursor').1) :
    (genMmExtraHashKeys request startTokenIdx endTokenIdx cursor).1 =
      (genMmExtraHashKeys request startTokenIdx endTokenIdx cursor').1 := by
  simp only [generateBlockHashExtraKeys] at same
  generalize (genMmExtraHashKeys request startTokenIdx endTokenIdx cursor) = items at same ⊢
  generalize (genMmExtraHashKeys request startTokenIdx endTokenIdx cursor') = items' at same ⊢
  generalize (genPromptEmbedsExtraHashKeys request startTokenIdx endTokenIdx).map
    ExtraKey.bytes = embeds at same
  have whole (items : List String × Int) (keys : List (ExtraKey Digest))
      (is : (genLoraExtraHashKeys request ++ items.1 ++ cacheSaltKeys request startTokenIdx).map
        ExtraKey.text ++ embeds = keys) :
      (if keys.isEmpty = true then ((none : Option (List (ExtraKey Digest))), items.2)
        else (some keys, items.2)).1 = if keys = [] then none else some keys := by
    cases keys with
    | nil => rfl
    | cons key rest => rfl
  rw [whole items _ rfl, whole items' _ rfl] at same
  have equal : (genLoraExtraHashKeys request ++ items.1 ++ cacheSaltKeys request startTokenIdx).map
        (ExtraKey.text : String → ExtraKey Digest) ++ embeds =
      (genLoraExtraHashKeys request ++ items'.1 ++ cacheSaltKeys request startTokenIdx).map
        ExtraKey.text ++ embeds := by
    split at same
    · rename_i empty
      split at same
      · rename_i empty'
        rw [empty, empty']
      · contradiction
    · split at same
      · contradiction
      · exact some.inj same
  have texts := map_injective_iff.mpr (fun _ _ => ExtraKey.text.inj) (append_cancel_right equal)
  exact append_cancel_left (append_cancel_right texts)

theorem cursorAt_exists (ordered : Ordered request.mmFeatures) (index : Nat) :
    ∃ cursor, CursorAt blockSize 0 request.mmFeatures index cursor := by
  induction index with
  | zero => exact ⟨0, .start rfl rfl⟩
  | succ index ih =>
    obtain ⟨cursor, placed⟩ := ih
    obtain ⟨next, -, placedNext⟩ := itemKeys_step blockSize ordered (Nat.zero_le index) placed
    exact ⟨next, placedNext⟩

/-- A cursor under which a block gets the keys of one pass sees the items of one pass. -/
theorem items_of_onePass (positive : 0 < blockSize) {request : Request Digest}
    (ordered : Ordered request.mmFeatures) {index : Nat} {cursor : Int}
    (same : some (generateBlockHashExtraKeys request (index * blockSize) ((index + 1) * blockSize)
      cursor).1 = onePassKeys request blockSize index) :
    (genMmExtraHashKeys request (index * blockSize) ((index + 1) * blockSize) cursor).1 =
      itemKeys blockSize 0 request.mmFeatures index := by
  obtain ⟨cursor', placed⟩ := cursorAt_exists blockSize request ordered index
  obtain ⟨next, items, -⟩ := itemKeys_step blockSize ordered (Nat.zero_le index) placed
  have keys := extraKeys_eq blockSize positive items
  rw [onePassKeys_eq blockSize positive request ordered index] at same
  have equal := extraKeys_items request ((some.inj same).trans (congrArg Prod.fst keys).symm)
  rw [equal, items]

/-- An item that ends where a block starts is a key from cursor 0 only. -/
theorem inner_needed (ordered : Ordered request.mmFeatures) (index : Nat)
    (item : MultiModalFeatureSpec) (member : item ∈ request.mmFeatures)
    (some : item.mmPosition.offset < itemEnd item) (ends : itemEnd item = index * blockSize)
    (positive : 0 < blockSize) :
    (genMmExtraHashKeys request (index * blockSize) ((index + 1) * blockSize) 0).1 ≠
      itemKeys blockSize 0 request.mmFeatures index := by
  have next : (index + 1) * blockSize = index * blockSize + blockSize := Nat.succ_mul _ _
  have later : index ≠ 0 := by
    rintro rfl
    omega
  obtain ⟨last, given⟩ : ∃ last, request.mmFeatures.getLast? = Option.some last :=
    ne_none_iff_exists'.mp fun none => by
      rw [getLast?_eq_none_iff.mp none] at member
      cases member
  have reach := itemEnd_le_last _ ordered last given item member
  obtain ⟨scanned, -⟩ := scan_from blockSize index request.mmFeatures request.mmFeatures 0 ordered
    rfl
  have keys : (genMmExtraHashKeys request (index * blockSize) ((index + 1) * blockSize) 0).1 =
      (request.mmFeatures.filter (meets (index * blockSize) ((index + 1) * blockSize))).map
        (·.identifier) := by
    have ahead : ¬ last.mmPosition.offset + last.mmPosition.length < index * blockSize := by
      rw [itemEnd, itemEnd] at reach
      rw [itemEnd] at ends
      omega
    simp only [genMmExtraHashKeys, given, ahead, ↓reduceIte, Int.lt_irrefl, Int.toNat_zero,
      drop_zero, scanned]
  intro same
  rw [keys, itemKeys, eligible, if_pos rfl] at same
  have lengths := congrArg length same
  rw [length_map, length_map] at lengths
  have fewer : request.mmFeatures.filter (touches blockSize 0 index) =
      (request.mmFeatures.filter (meets (index * blockSize) ((index + 1) * blockSize))).filter
        fun item => !passed (index * blockSize) item := by
    rw [List.filter_filter]
    congr 1
    funext item
    simp [touches, later, Bool.and_comm]
  rw [fewer] at lengths
  have all := length_filter_eq_length_iff.mp lengths.symm item
    (mem_filter.mpr ⟨member, (meets_iff _ _ _).mpr (by omega)⟩)
  have gone : passed (index * blockSize) item = true := (passed_iff _ _).mpr (by omega)
  rw [gone] at all
  contradiction

/-- An item before the last that touches a block is missed by a batch that begins there. -/
theorem early_needed {index : Nat} {features : List MultiModalFeatureSpec}
    (ordered : Ordered features) (later : index ≠ 0) {item : MultiModalFeatureSpec}
    (member : item ∈ features.dropLast) (touched : touches blockSize 0 index item = true) :
    itemKeys blockSize index features index ≠ itemKeys blockSize 0 features index := by
  cases given : features.getLast? with
  | none =>
    rw [getLast?_eq_none_iff.mp given] at member
    cases member
  | some last =>
    obtain ⟨before, rfl⟩ := getLast?_eq_some_iff.mp given
    rw [dropLast_concat] at member
    have behind := (pairwise_append.mp ordered).2.2 item member last mem_cons_self
    -- The last item is then a key of one pass as soon as it meets the block.
    have also (met : touches blockSize index index last = true) :
        touches blockSize 0 index last = true := by
      rw [touches, Bool.and_eq_true, meets_iff] at met touched
      rw [touches, Bool.and_eq_true, meets_iff]
      simp only [decide_eq_false (fun zero : index = 0 => later zero), Bool.false_or,
        Bool.not_eq_true', ← Bool.not_eq_true, passed_iff]
      exact ⟨met.1, by omega⟩
    intro same
    have lengths := congrArg length same
    simp only [itemKeys, eligible, later, given, ↓reduceIte, length_map, toList_some,
      filter_append, length_append] at lengths
    have some := length_pos_of_mem (mem_filter.mpr ⟨member, touched⟩)
    rw [filter_cons, filter_cons] at lengths
    cases met : touches blockSize index index last with
    | true =>
      rw [met, also met] at lengths
      simp only [↓reduceIte, filter_nil, length_cons, length_nil] at lengths
      omega
    | false =>
      rw [met] at lengths
      simp only [Bool.false_eq_true, ↓reduceIte, filter_nil, length_nil] at lengths
      omega

theorem storedBlocks_last (block : BlockId) (index : Nat) :
    storedBlocks (List.replicate (index + 1) block) index (index + 1) = [(block, index)] := by
  apply ext_getElem?
  intro position
  rw [storedBlocks]
  cases position with
  | zero => simp
  | succ position => simp

/-- The condition, from the keys of single blocks. -/
theorem cursorFree_clear (positive : 0 < hasher.blockSize) (pool : Pool Digest)
    (request : Request Digest) (ordered : Ordered request.mmFeatures)
    (free : CursorFree hasher pool request) :
    Clear hasher.blockSize (request.numTokens / hasher.blockSize) request.mmFeatures := by
  constructor
  · rintro item member some ⟨index, ends⟩
    have keys := free.stored (replicate (index + 1) (pool.nullBlock + 1)) index (index + 1)
    have real : pool.isNull (pool.nullBlock + 1) = false :=
      decide_eq_false (Nat.succ_ne_self pool.nullBlock)
    simp only [storedBlocks_last, Pool.extraKeysLoop, real, Bool.false_eq_true, ↓reduceIte,
      map_cons, map_nil, filter_cons, Bool.not_false, filter_nil,
      cons.injEq, and_true] at keys
    rw [← Nat.succ_mul] at keys
    rw [Nat.mul_comm] at ends
    exact inner_needed hasher.blockSize request ordered index item member some ends positive
      (items_of_onePass hasher.blockSize positive ordered keys)
  · intro item member
    by_contra unpassed
    rw [passed_iff] at unpassed
    generalize first : max (request.numTokens / hasher.blockSize) 1 = numHashed at unpassed
    -- The block that the item begins in, or the first that is hashed later.
    let index := max numHashed (item.mmPosition.offset / hasher.blockSize)
    have later : index ≠ 0 := by omega
    have touched : touches hasher.blockSize 0 index item = true := by
      have whole := Nat.div_mul_le_self item.mmPosition.offset hasher.blockSize
      have next := Nat.lt_div_mul_add positive (a := item.mmPosition.offset)
      have succ : (index + 1) * hasher.blockSize = index * hasher.blockSize + hasher.blockSize :=
        Nat.succ_mul _ _
      have reach := offset_le_itemEnd item
      rw [touches, Bool.and_eq_true, meets_iff]
      simp only [decide_eq_false (fun zero : index = 0 => later zero), Bool.false_or,
        Bool.not_eq_true', ← Bool.not_eq_true, passed_iff]
      rcases Nat.le_total numHashed (item.mmPosition.offset / hasher.blockSize) with inside | before
      · have here : index = item.mmPosition.offset / hasher.blockSize := Nat.max_eq_right inside
        rw [succ, here]
        omega
      · have here : index = numHashed := Nat.max_eq_left before
        have begins := Nat.mul_le_mul_right hasher.blockSize before
        rw [succ, here]
        omega
    have keys := free.incremental index 1 (Nat.pos_of_ne_zero later) (by omega)
    simp only [passKeys, map_cons, map_nil, range_one, Nat.add_zero, cons.injEq, and_true] at keys
    have onePass := items_of_onePass hasher.blockSize positive ordered keys
    obtain ⟨next, items, -⟩ := itemKeys_step hasher.blockSize ordered
      (Nat.le_refl index) (.start rfl (if_neg later).symm)
    rw [items] at onePass
    exact early_needed hasher.blockSize ordered later member touched onePass

/-- A new request is hashed with the keys of one pass. -/
theorem init_hashing (positive : 0 < hasher.blockSize) (args : RequestArgs Digest)
    (given : args.blockHasher = some hasher) (request : Request Digest)
    (created : Request.init args = some request) (ordered : Ordered request.mmFeatures)
    (clear : Clear hasher.blockSize (request.numTokens / hasher.blockSize) request.mmFeatures) :
    Hashing hasher (request.numTokens / hasher.blockSize) request := by
  obtain ⟨maxTokens, structured, status, rfl⟩ := init_cases created
  constructor
  · exact given
  · exact ordered
  · exact clear
  · exact updateBlockHashes_hashesOf hasher positive (Request.create args maxTokens structured status)
      given ordered clear [] (by rw [payloads]; simp [Request.create, digests]) nil_prefix
      (Or.inl rfl)
  · exact Nat.le_refl _

/-- The extra keys depend on the block only, exactly when no item ends between two blocks and all
items but the last end within the blocks that are hashed first. -/
theorem extraKeys_cursorFree_iff (hasher : BlockHasher Digest) (positive : 0 < hasher.blockSize)
    (pool : Pool Digest) (args : RequestArgs Digest) (given : args.blockHasher = some hasher)
    (request : Request Digest) (created : Request.init args = some request)
    (ordered : Ordered request.mmFeatures) :
    CursorFree hasher pool request ↔
      Clear hasher.blockSize (request.numTokens / hasher.blockSize) request.mmFeatures := by
  constructor
  · exact cursorFree_clear hasher positive pool request ordered
  · intro clear
    constructor
    · intro first count later least
      have zero : first ≠ 0 := Nat.ne_of_gt later
      rw [passKeys_eq hasher.blockSize first positive request ordered count first (-1)
        (Nat.le_refl first) (.start rfl (if_neg zero).symm), List.map_map]
      apply map_congr_left
      intro offset _
      rw [onePassKeys_eq hasher.blockSize positive request ordered, comp_apply,
        flatKeys_clear hasher.blockSize _ first _ _ clear (by omega) _ (Nat.le_add_right _ _)]
    · intro blocks numCachedBlocks numFullBlocks
      apply extraKeysLoop_clear hasher.blockSize _ positive pool request ordered clear _
        (storedBlocks_increasing blocks numCachedBlocks numFullBlocks) 0
        (fun _ _ => Nat.zero_le _) 0
      refine ⟨0, rfl, ?_⟩
      rw [drop_zero, filter_eq_self.mpr]
      intro item _
      rw [Bool.not_eq_true', ← Bool.not_eq_true, passed_iff]
      omega
    · intro chunks
      exact hashing_oneBatch hasher positive _ _ (appendAll_hashing hasher positive _ request
        (init_hashing hasher positive args given request created ordered clear) chunks)

/-! Prompts of six tokens in blocks of four: the second block is completed by generated tokens. -/

def countingHasher : BlockHasher Nat :=
  ⟨4, fun (parent, tokens, _) => parent + tokens.length, 0⟩

def promptArgs (features : List MultiModalFeatureSpec) : RequestArgs Nat where
  requestId := 1
  promptTokenIds := some [1, 2, 3, 4, 5, 6]
  samplingParams := some ⟨4, 0, none, [], none, none⟩
  poolingParams := none
  clientIndex := 0
  arrivalTime := 0
  promptEmbeds := none
  mmFeatures := features
  loraRequest := none
  cacheSalt := none
  priority := 0
  structuredOutput := false
  blockHasher := some countingHasher
  resumable := false

def promptRequest (features : List MultiModalFeatureSpec) : Request Nat :=
  (Request.init (promptArgs features)).get rfl

def smallPool : Pool Nat := (Pool.init 4 true 4 true).get rfl

def oneImage : List MultiModalFeatureSpec := [⟨"image", ⟨4, 2, none⟩⟩]

def twoImages : List MultiModalFeatureSpec := [⟨"first", ⟨4, 1, none⟩⟩, ⟨"second", ⟨5, 1, none⟩⟩]

theorem oneImage_cursorFree : CursorFree countingHasher smallPool (promptRequest oneImage) :=
  (extraKeys_cursorFree_iff countingHasher (by decide) smallPool (promptArgs oneImage) rfl
    (promptRequest oneImage) rfl (pairwise_singleton _ _)).mpr (by decide)

/-- The pool names an item that ends where its first block starts. -/
example : smallPool.extraKeysLoop (promptRequest [⟨"image", ⟨2, 2, none⟩⟩]) 4 [(3, 1)] 0 =
    [some [.text "image"]] ∧ onePassKeys (promptRequest [⟨"image", ⟨2, 2, none⟩⟩]) 4 1 =
      some none := by
  decide

/-- The block that holds the ends of two items is hashed with the second only. -/
theorem twoImages_not_cursorFree :
    ¬ ∀ (hasher : BlockHasher Nat), 0 < hasher.blockSize → ∀ (pool : Pool Nat)
      (args : RequestArgs Nat), args.blockHasher = some hasher → ∀ request,
        Request.init args = some request → Ordered request.mmFeatures →
          CursorFree hasher pool request := by
  intro all
  have free := all countingHasher (by decide) smallPool (promptArgs twoImages) rfl
    (promptRequest twoImages) rfl (by simp [Ordered, twoImages, itemEnd, promptRequest, promptArgs,
      Request.init, Request.create, Request.updateBlockHashes])
  have keys := free.incremental 1 1 (by decide) (by decide)
  revert keys
  decide

end VllmDcu.CursorKeys

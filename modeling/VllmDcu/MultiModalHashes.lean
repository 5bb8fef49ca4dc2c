import VllmDcu.BlockHashes

/-! What a block hash says about a request with multimodal items, a LoRA adapter
and a cache salt. The cursor loop over the items is replaced by a filter: a batch
of blocks sees all items when it starts the chain and only the last one when it
continues it, and a block's keys are the identifiers of the items that touch it.
Neither an item's offset nor the role of a string is part of a key. -/
namespace VllmDcu.MultiModalHashes
open Requests HashChain BlockHashes List Option
variable {Digest : Type}

def itemEnd (item : MultiModalFeatureSpec) : Nat := item.mmPosition.offset + item.mmPosition.length

/-- Items in the order of their offsets, none reaching into the next. -/
def Ordered (features : List MultiModalFeatureSpec) : Prop :=
  features.Pairwise fun item later => itemEnd item ≤ later.mmPosition.offset

/-- The loop's test, which also accepts an item that ends where the block starts. -/
def meets (startTokenIdx endTokenIdx : Nat) (item : MultiModalFeatureSpec) : Bool :=
  decide (item.mmPosition.offset < endTokenIdx) && decide (startTokenIdx ≤ itemEnd item)

/-- The items that a block ending here leaves behind. -/
def passed (endTokenIdx : Nat) (item : MultiModalFeatureSpec) : Bool :=
  decide (item.mmPosition.offset < endTokenIdx) && decide (itemEnd item ≤ endTokenIdx)

theorem meets_iff (startTokenIdx endTokenIdx : Nat) (item : MultiModalFeatureSpec) :
    meets startTokenIdx endTokenIdx item = true ↔
      item.mmPosition.offset < endTokenIdx ∧ startTokenIdx ≤ itemEnd item := by
  simp [meets]

variable (endTokenIdx : Nat) (item : MultiModalFeatureSpec)

theorem passed_iff :
    passed endTokenIdx item = true ↔
      item.mmPosition.offset < endTokenIdx ∧ itemEnd item ≤ endTokenIdx := by
  simp [passed]

theorem offset_le_itemEnd : item.mmPosition.offset ≤ itemEnd item := Nat.le_add_right _ _

theorem not_passed_later (rest : List MultiModalFeatureSpec) (ordered : Ordered (item :: rest))
    (unpassed : passed endTokenIdx item = false) :
    ∀ later ∈ rest, passed endTokenIdx later = false := by
  intro later member
  have behind := (pairwise_cons.mp ordered).1 later member
  have reach := offset_le_itemEnd item
  rw [← Bool.not_eq_true, passed_iff] at unpassed ⊢
  omega

variable (features : List MultiModalFeatureSpec)

theorem drop_passed (ordered : Ordered features) :
    features.drop (features.filter (passed endTokenIdx)).length =
      features.filter fun item => !passed endTokenIdx item := by
  induction features with
  | nil => rfl
  | cons item rest ih =>
    cases left : passed endTokenIdx item with
    | true => simpa [left] using ih (pairwise_cons.mp ordered).2
    | false =>
      have later := not_passed_later endTokenIdx item rest ordered left
      have none : rest.filter (passed endTokenIdx) = [] :=
        filter_eq_nil_iff.mpr fun item member => by simp [later item member]
      have all : rest.filter (fun item => !passed endTokenIdx item) = rest :=
        filter_eq_self.mpr fun item member => by simp [later item member]
      simp [left, none, all]

theorem mmKeysFrom_eq {startTokenIdx endTokenIdx : Nat} (forward : startTokenIdx ≤ endTokenIdx)
    {features : List MultiModalFeatureSpec} (ordered : Ordered features) {currMmIdx : Nat} :
    mmKeysFrom startTokenIdx endTokenIdx features currMmIdx =
      ((features.filter (meets startTokenIdx endTokenIdx)).map (·.identifier),
        currMmIdx + (features.filter (passed endTokenIdx)).length) := by
  induction features generalizing currMmIdx with
  | nil => rfl
  | cons item rest ih =>
    obtain ⟨behind, orderedRest⟩ := pairwise_cons.mp ordered
    have reach := offset_le_itemEnd item
    -- once the block ends before an item does, later items begin behind it
    have beyond (reach : endTokenIdx ≤ itemEnd item) :
        rest.filter (meets startTokenIdx endTokenIdx) = [] ∧
          rest.filter (passed endTokenIdx) = [] := by
      constructor
      · refine filter_eq_nil_iff.mpr fun later member => ?_
        have := behind later member
        rw [meets_iff]
        omega
      · refine filter_eq_nil_iff.mpr fun later member => ?_
        have := behind later member
        rw [passed_iff]
        omega
    by_cases reached : endTokenIdx > item.mmPosition.offset
    · by_cases behindStart : startTokenIdx > itemEnd item
      · have left : passed endTokenIdx item = true := by
          rw [passed_iff]
          omega
        have missed : meets startTokenIdx endTokenIdx item = false := by
          rw [← Bool.not_eq_true, meets_iff]
          omega
        have skip : mmKeysFrom startTokenIdx endTokenIdx (item :: rest) currMmIdx =
            mmKeysFrom startTokenIdx endTokenIdx rest (currMmIdx + 1) := by
          simp only [mmKeysFrom, reached, ↓reduceIte]
          simpa [itemEnd] using fun notOver => absurd behindStart (Nat.not_lt.mpr notOver)
        rw [skip, ih orderedRest]
        simp [left, missed, Nat.add_assoc, Nat.add_comm 1]
      · have met : meets startTokenIdx endTokenIdx item = true := by
          rw [meets_iff]
          omega
        by_cases closed : endTokenIdx ≥ itemEnd item
        · have left : passed endTokenIdx item = true := by
            rw [passed_iff]
            omega
          have take : mmKeysFrom startTokenIdx endTokenIdx (item :: rest) currMmIdx =
              (item.identifier :: (mmKeysFrom startTokenIdx endTokenIdx rest (currMmIdx + 1)).1,
                (mmKeysFrom startTokenIdx endTokenIdx rest (currMmIdx + 1)).2) := by
            simp only [itemEnd] at behindStart closed
            simp [mmKeysFrom, reached, behindStart, closed]
          rw [take, ih orderedRest]
          simp [left, met, Nat.add_assoc, Nat.add_comm 1]
        · have unpassed : passed endTokenIdx item = false := by
            rw [← Bool.not_eq_true, passed_iff]
            omega
          have stop : mmKeysFrom startTokenIdx endTokenIdx (item :: rest) currMmIdx =
              ([item.identifier], currMmIdx) := by
            simp only [itemEnd] at behindStart closed
            simp [mmKeysFrom, reached, behindStart, closed]
          obtain ⟨noKeys, nonePassed⟩ := beyond (by omega)
          rw [stop]
          simp [unpassed, met, noKeys, nonePassed]
    · have missed : meets startTokenIdx endTokenIdx item = false := by
        rw [← Bool.not_eq_true, meets_iff]
        omega
      have unpassed : passed endTokenIdx item = false := by
        rw [← Bool.not_eq_true, passed_iff]
        omega
      obtain ⟨noKeys, nonePassed⟩ := beyond (by omega)
      simp [mmKeysFrom, reached, missed, unpassed, noKeys, nonePassed]

/-- The items a batch of blocks from block `first` on looks at. -/
def eligible (first : Nat) (features : List MultiModalFeatureSpec) : List MultiModalFeatureSpec :=
  if first = 0 then features else features.getLast?.toList

/-- The items whose identifiers are keys of block `index` in that batch. -/
def touches (blockSize first index : Nat) (item : MultiModalFeatureSpec) : Bool :=
  meets (index * blockSize) ((index + 1) * blockSize) item &&
    (decide (index = first) || !passed (index * blockSize) item)

def itemKeys (blockSize first : Nat) (features : List MultiModalFeatureSpec) (index : Nat) :
    List String :=
  ((eligible first features).filter (touches blockSize first index)).map (·.identifier)

/-- The item cursor before block `index` of a batch from block `first` on. -/
inductive CursorAt (blockSize first : Nat) (features : List MultiModalFeatureSpec) (index : Nat)
    (cursor : Int) : Prop where
  | start (here : index = first) (value : cursor = if first = 0 then 0 else -1)
  | inside (after : first < index) (position : Nat) (value : cursor = position)
      (ahead : features.drop position =
        (eligible first features).filter fun item => !passed (index * blockSize) item)
  | finished (last : MultiModalFeatureSpec) (given : features.getLast? = some last)
      (behind : itemEnd last < index * blockSize)
  | empty (none : features = [])

theorem itemEnd_le_last (ordered : Ordered features) (last : MultiModalFeatureSpec)
    (given : features.getLast? = some last) :
    ∀ item ∈ features, itemEnd item ≤ itemEnd last := by
  obtain ⟨init, rfl⟩ := getLast?_eq_some_iff.mp given
  intro item member
  rcases mem_append.mp member with before | same
  · have := (pairwise_append.mp ordered).2.2 item before last (by simp)
    simp only [itemEnd] at this ⊢
    omega
  · rw [mem_singleton.mp same]

theorem eligible_sublist {first : Nat} {features : List MultiModalFeatureSpec} :
    (eligible first features).Sublist features := by
  unfold eligible
  split
  · exact Sublist.refl _
  · cases given : features.getLast? with
    | none => simp
    | some last => simpa using mem_of_getLast? given

theorem ordered_sublist (first second : List MultiModalFeatureSpec) (sub : first.Sublist second)
    (ordered : Ordered second) : Ordered first := List.Pairwise.sublist sub ordered

variable (blockSize : Nat)

/-- The loop from a cursor that has `ahead` in front of it. -/
theorem scan_from (index : Nat) (features ahead : List MultiModalFeatureSpec) (position : Nat)
    (ordered : Ordered features) (drop : features.drop position = ahead) :
    mmKeysFrom (index * blockSize) ((index + 1) * blockSize) ahead position =
        ((ahead.filter (meets (index * blockSize) ((index + 1) * blockSize))).map (·.identifier),
          position + (ahead.filter (passed ((index + 1) * blockSize))).length) ∧
      features.drop (position + (ahead.filter (passed ((index + 1) * blockSize))).length) =
        ahead.filter fun item => !passed ((index + 1) * blockSize) item := by
  have orderedAhead : Ordered ahead := by
    rw [← drop]
    exact ordered_sublist _ _ (drop_sublist _ _) ordered
  constructor
  · exact mmKeysFrom_eq (Nat.mul_le_mul_right _ (Nat.le_succ _)) orderedAhead
  · rw [← drop_drop, drop, drop_passed _ _ orderedAhead]

theorem passed_mono {first last : Nat} (forward : first ≤ last) {item : MultiModalFeatureSpec}
    (done : passed first item = true) : passed last item = true := by
  rw [passed_iff] at done ⊢
  omega

theorem drop_last (last : MultiModalFeatureSpec) (given : features.getLast? = some last) :
    0 < features.length ∧ features.drop (features.length - 1) = [last] := by
  obtain ⟨init, rfl⟩ := getLast?_eq_some_iff.mp given
  simp

/-- A block's scan from a cursor at some position, by what lies ahead of it. -/
theorem scan_keys (first : Nat) (request : Request Digest) (ordered : Ordered request.mmFeatures)
    (index position : Nat) (cursor : Int) (last : MultiModalFeatureSpec)
    (given : request.mmFeatures.getLast? = some last)
    (unpassed : ¬ itemEnd last < index * blockSize)
    (start : (if cursor < 0 then cursor + request.mmFeatures.length else cursor) = position)
    (ahead : List MultiModalFeatureSpec) (drop : request.mmFeatures.drop position = ahead)
    (keys : ahead.filter (meets (index * blockSize) ((index + 1) * blockSize)) =
      (eligible first request.mmFeatures).filter (touches blockSize first index))
    (left : (ahead.filter fun item => !passed ((index + 1) * blockSize) item) =
      (eligible first request.mmFeatures).filter fun item => !passed ((index + 1) * blockSize) item)
    (reached : first ≤ index) :
    ∃ next, genMmExtraHashKeys request (index * blockSize) ((index + 1) * blockSize) cursor =
        (itemKeys blockSize first request.mmFeatures index, next) ∧
      CursorAt blockSize first request.mmFeatures (index + 1) next := by
  obtain ⟨scanned, dropped⟩ :=
    scan_from blockSize index request.mmFeatures ahead position ordered drop
  refine ⟨(position + (ahead.filter (passed ((index + 1) * blockSize))).length : Nat), ?_,
    .inside (Nat.lt_succ_of_le reached) _ rfl (dropped.trans left)⟩
  rw [itemEnd] at unpassed
  simp only [genMmExtraHashKeys, given, unpassed, ↓reduceIte, start, Int.toNat_natCast, drop, scanned,
    keys, itemKeys]

theorem itemKeys_step {first : Nat} {request : Request Digest}
    (ordered : Ordered request.mmFeatures) {index : Nat} {cursor : Int} (reached : first ≤ index)
    (placed : CursorAt blockSize first request.mmFeatures index cursor) :
    ∃ next, genMmExtraHashKeys request (index * blockSize) ((index + 1) * blockSize) cursor =
        (itemKeys blockSize first request.mmFeatures index, next) ∧
      CursorAt blockSize first request.mmFeatures (index + 1) next := by
  have forward : index * blockSize ≤ (index + 1) * blockSize :=
    Nat.mul_le_mul_right _ (Nat.le_succ _)
  cases given : request.mmFeatures.getLast? with
  | none =>
    have empty := getLast?_eq_none_iff.mp given
    refine ⟨cursor, ?_, .empty empty⟩
    simp [genMmExtraHashKeys, itemKeys, eligible, empty]
  | some last =>
    by_cases behind : itemEnd last < index * blockSize
    · -- every item ends before this block
      have missed : (eligible first request.mmFeatures).filter (touches blockSize first index) =
          [] := by
        refine filter_eq_nil_iff.mpr fun item member => ?_
        have := itemEnd_le_last _ ordered last given item (eligible_sublist.subset member)
        rw [touches, Bool.and_eq_true, meets_iff]
        omega
      refine ⟨cursor, ?_, .finished last given (Nat.lt_of_lt_of_le behind forward)⟩
      rw [itemEnd] at behind
      simp [genMmExtraHashKeys, given, behind, itemKeys, missed]
    · cases placed with
      | start here value =>
        subst here
        have keys : (eligible index request.mmFeatures).filter
            (meets (index * blockSize) ((index + 1) * blockSize)) =
            (eligible index request.mmFeatures).filter (touches blockSize index index) := by
          congr 1
          funext item
          simp [touches]
        by_cases zero : index = 0
        · exact scan_keys blockSize index request ordered index 0 cursor last given behind
            (by simp [value, zero]) _ (by simp [eligible, zero]) keys rfl reached
        · obtain ⟨some, drop⟩ := drop_last request.mmFeatures last given
          refine scan_keys blockSize index request ordered index
            (request.mmFeatures.length - 1) cursor last given behind ?_ _ ?_ keys rfl reached
          · omega
          · simp [eligible, zero, given, drop]
      | inside after position value ahead =>
        refine scan_keys blockSize first request ordered index position cursor last given behind
          (by rw [value, if_neg (Int.not_lt.mpr (Int.natCast_nonneg position))]) _ ahead ?_ ?_
          reached
        · rw [List.filter_filter]
          congr 1
          funext item
          simp [touches, Nat.ne_of_gt after]
        · rw [List.filter_filter]
          congr 1
          funext item
          cases done : passed (index * blockSize) item with
          | true => simp [passed_mono forward done]
          | false => simp
      | finished other same done =>
        rw [given, some.injEq] at same
        exact absurd (same ▸ done) behind
      | empty none => simp [none] at given

/-! A request's life, and the chain of payloads its hashes spell. -/

/-- What of a request goes into every one of its blocks. -/
structure Identity (Digest : Type) where
  loraName : Option String
  cacheSalt : Option String
  promptEmbeds : Option (PromptEmbeds Digest)

def identityOf (request : Request Digest) : Identity Digest :=
  ⟨request.loraRequest.map (·.loraName), request.cacheSalt, request.promptEmbeds⟩

/-- The flat tuple of extra keys of block `index` in a batch from block `first`. -/
def flatKeys (blockSize first : Nat) (identity : Identity Digest)
    (features : List MultiModalFeatureSpec) : Labels Digest := fun index =>
  let salt := if index = 0 then identity.cacheSalt.toList.filter (· ≠ "") else []
  let embeds := identity.promptEmbeds.toList.map fun embeds =>
    embeds.sliceDigest (index * blockSize) ((index + 1) * blockSize)
  let keys := (identity.loraName.toList ++ itemKeys blockSize first features index ++ salt).map
    ExtraKey.text ++ embeds.map ExtraKey.bytes
  if keys.isEmpty then none else some keys

theorem extraKeys_eq {first : Nat} (positive : 0 < blockSize) {request : Request Digest}
    {index : Nat} {cursor next : Int}
    (items : genMmExtraHashKeys request (index * blockSize) ((index + 1) * blockSize) cursor =
      (itemKeys blockSize first request.mmFeatures index, next)) :
    generateBlockHashExtraKeys request (index * blockSize) ((index + 1) * blockSize) cursor =
      (flatKeys blockSize first (identityOf request) request.mmFeatures index, next) := by
  have lora : genLoraExtraHashKeys request = (identityOf request).loraName.toList := by
    unfold genLoraExtraHashKeys identityOf
    cases request.loraRequest <;> rfl
  have salt : cacheSaltKeys request (index * blockSize) =
      if index = 0 then (identityOf request).cacheSalt.toList.filter (· ≠ "") else [] := by
    have zero : index * blockSize = 0 ↔ index = 0 := by
      rw [Nat.mul_eq_zero]
      omega
    simp only [cacheSaltKeys, identityOf, zero]
    cases request.cacheSalt with
    | none => simp
    | some salt =>
      by_cases first : index = 0 <;> by_cases empty : salt = "" <;> simp [first, empty]
  have embeds : genPromptEmbedsExtraHashKeys request (index * blockSize) ((index + 1) * blockSize) =
      (identityOf request).promptEmbeds.toList.map fun embeds =>
        embeds.sliceDigest (index * blockSize) ((index + 1) * blockSize) := by
    unfold genPromptEmbedsExtraHashKeys identityOf
    cases request.promptEmbeds <;> rfl
  simp only [generateBlockHashExtraKeys, items, lora, salt, embeds, flatKeys]
  exact (apply_ite (fun keys => (keys, next)) _ _ _).symm

/-- What changes the tokens or items of a request. A streaming update finds
`num_computed_tokens` wherever the scheduler has left it. -/
inductive Event where
  | appendOutputTokenIds (tokenIds : List Token)
  | updateAsSession (numComputedTokens : Int) (update : StreamingUpdate)

def applyEvent (request : Request Digest) : Event → Option (Request Digest)
  | .appendOutputTokenIds tokenIds => some (request.appendOutputTokenIds tokenIds)
  | .updateAsSession numComputedTokens update =>
    { request with numComputedTokens := numComputedTokens }.updateAsSession update

def applyEvents : Request Digest → List Event → Option (Request Digest)
  | request, [] => some request
  | request, event :: rest => (applyEvent request event).bind fun next => applyEvents next rest

structure Life (Digest : Type) where
  args : RequestArgs Digest
  events : List Event

def Life.request (life : Life Digest) : Option (Request Digest) :=
  (Request.init life.args).bind fun request => applyEvents request life.events

/-- What the hashes were computed from: every batch adds the blocks that have
become full, cut from the tokens and items of that moment. -/
structure Trace (Digest : Type) where
  tokens : List Token
  features : List MultiModalFeatureSpec
  chain : List (Payload Digest)

def Trace.hash (blockSize : Nat) (identity : Identity Digest) (trace : Trace Digest) :
    Trace Digest :=
  let first := trace.chain.length
  { trace with chain := trace.chain ++
      (payloads blockSize (flatKeys blockSize first identity trace.features) trace.tokens).drop first }

def Trace.apply (blockSize : Nat) (identity : Identity Digest) (trace : Trace Digest) :
    Event → Trace Digest
  | .appendOutputTokenIds tokenIds =>
    Trace.hash blockSize identity { trace with tokens := trace.tokens ++ tokenIds }
  | .updateAsSession numComputedTokens update =>
    let kept := trace.tokens.take (sliceBound trace.tokens.length numComputedTokens)
    Trace.hash blockSize identity
      { trace with
        tokens := kept ++ update.promptTokenIds.getD []
        features := trace.features ++ update.mmFeatures.map (shiftFeature kept.length) }

def Life.identity (life : Life Digest) : Identity Digest :=
  ⟨life.args.loraRequest.map (·.loraName), life.args.cacheSalt, life.args.promptEmbeds⟩

def Life.promptTokens (life : Life Digest) : List Token :=
  life.args.promptTokenIds.getD (List.replicate (lengthFromPromptTokenIdsOrEmbeds life.args) 0)

def Life.trace (blockSize : Nat) (life : Life Digest) : Trace Digest :=
  life.events.foldl (Trace.apply blockSize life.identity)
    (Trace.hash blockSize life.identity ⟨life.promptTokens, life.args.mmFeatures, []⟩)

structure Matches (hasher : BlockHasher Digest) (identity : Identity Digest)
    (request : Request Digest) (trace : Trace Digest) : Prop where
  tokens : request.allTokenIds = trace.tokens
  features : request.mmFeatures = trace.features
  hashed : request.blockHasher = some hasher
  identity : identityOf request = identity
  hashes : request.blockHashes = digests hasher.cachingHashFn hasher.noneHash trace.chain

variable (hasher : BlockHasher Digest)

/-- Hashing a batch keeps request and trace together. -/
theorem hash_matches (positive : 0 < hasher.blockSize) {identity : Identity Digest}
    {request : Request Digest} {trace : Trace Digest} (ordered : Ordered request.mmFeatures)
    (same : Matches hasher identity request trace) :
    Matches hasher identity request.updateBlockHashes
      (Trace.hash hasher.blockSize identity trace) := by
  refine ⟨same.tokens, same.features, same.hashed, same.identity, ?_⟩
  have updated := updateBlockHashes_eq hasher request positive same.hashed trace.chain same.hashes
    (flatKeys hasher.blockSize trace.chain.length (identityOf request) request.mmFeatures)
    (CursorAt hasher.blockSize trace.chain.length request.mmFeatures)
    (.start rfl rfl)
    (fun index cursor reached placed => by
      obtain ⟨next, items, kept⟩ := itemKeys_step hasher.blockSize ordered reached placed
      exact ⟨next, extraKeys_eq _ positive items, kept⟩)
  rw [updated, same.tokens, same.features, same.identity]
  rfl

theorem apply_features (request next : Request Digest) (event : Event)
    (applied : applyEvent request event = some next) : request.mmFeatures <+: next.mmFeatures := by
  cases event with
  | appendOutputTokenIds tokenIds =>
    cases some.inj applied
    exact prefix_refl _
  | updateAsSession numComputedTokens update =>
    obtain ⟨promptTokenIds, same⟩ := updateAsSession_hashInputs _ _ _ applied
    simp only [hashInputs, Prod.mk.injEq] at same
    rw [same.2.2.2.1]
    exact prefix_append _ _

theorem apply_matches (positive : 0 < hasher.blockSize) (identity : Identity Digest)
    (request next : Request Digest) (trace : Trace Digest) (event : Event)
    (applied : applyEvent request event = some next) (ordered : Ordered next.mmFeatures)
    (same : Matches hasher identity request trace) :
    Matches hasher identity next (Trace.apply hasher.blockSize identity trace event) := by
  cases event with
  | appendOutputTokenIds tokenIds =>
    have result := some.inj applied
    subst result
    exact hash_matches hasher positive ordered
      ⟨by rw [same.tokens], same.features, same.hashed, same.identity, same.hashes⟩
  | updateAsSession numComputedTokens update =>
    let before : Request Digest := { request with numComputedTokens := numComputedTokens }
    obtain ⟨promptTokenIds, inputs⟩ := updateAsSession_hashInputs before next update applied
    simp only [hashInputs, Prod.mk.injEq] at inputs
    obtain ⟨hashes, hashed, tokens, features, lora, salt, embeds⟩ := inputs
    let cut := before.cutAndExtend promptTokenIds update
    have orderedCut : Ordered cut.mmFeatures := by
      rw [features] at ordered
      exact ordered
    let kept := trace.tokens.take (sliceBound trace.tokens.length numComputedTokens)
    let cutTrace : Trace Digest :=
      { trace with
        tokens := kept ++ update.promptTokenIds.getD []
        features := trace.features ++ update.mmFeatures.map (shiftFeature kept.length) }
    have sameTokens : before.allTokenIds.take
        (sliceBound before.numTokens before.numComputedTokens) = kept := by
      simp only [before, kept, Request.numTokens, same.tokens]
    have cutMatches : Matches hasher identity cut cutTrace := by
      refine ⟨?_, ?_, same.hashed, same.identity, same.hashes⟩
      · simp only [cut, cutTrace, Request.cutAndExtend, sameTokens]
      · have sameFeatures : before.mmFeatures = trace.features := same.features
        simp only [cut, cutTrace, Request.cutAndExtend, sameTokens, sameFeatures]
    have hashedCut := hash_matches hasher positive orderedCut cutMatches
    refine ⟨tokens.trans hashedCut.tokens, features.trans hashedCut.features,
      hashed.trans hashedCut.hashed, ?_, hashes.trans hashedCut.hashes⟩
    have kept : identityOf next = identityOf cut.updateBlockHashes := by
      simp only [identityOf, lora, salt, embeds, cut]
    exact kept.trans hashedCut.identity

theorem applyEvents_features (events : List Event) (request final : Request Digest)
    (applied : applyEvents request events = some final) :
    request.mmFeatures <+: final.mmFeatures := by
  induction events generalizing request with
  | nil =>
    cases some.inj applied
    exact prefix_refl _
  | cons event rest ih =>
    obtain ⟨next, first, later⟩ := bind_eq_some_iff.mp applied
    exact (apply_features request next event first).trans (ih next later)

/-- Items are only added at the end, so the order of the final items is the
order of the items of every earlier moment. -/
theorem applyEvents_matches (positive : 0 < hasher.blockSize) (identity : Identity Digest)
    (events : List Event) (request final : Request Digest) (trace : Trace Digest)
    (applied : applyEvents request events = some final) (ordered : Ordered final.mmFeatures)
    (same : Matches hasher identity request trace) :
    Matches hasher identity final (events.foldl (Trace.apply hasher.blockSize identity) trace) := by
  induction events generalizing request trace with
  | nil =>
    rw [← some.inj applied]
    exact same
  | cons event rest ih =>
    obtain ⟨next, first, later⟩ := bind_eq_some_iff.mp applied
    have orderedNext : Ordered next.mmFeatures :=
      ordered_sublist _ _ (applyEvents_features rest next final later).sublist ordered
    exact ih next _ later
      (apply_matches hasher positive identity request next trace event first orderedNext same)

theorem life_matches (positive : 0 < hasher.blockSize) (life : Life Digest)
    (hashed : life.args.blockHasher = some hasher) (request : Request Digest)
    (lived : life.request = some request) (ordered : Ordered request.mmFeatures) :
    Matches hasher life.identity request (life.trace hasher.blockSize) := by
  obtain ⟨created, init, applied⟩ := bind_eq_some_iff.mp lived
  obtain ⟨maxTokens, structured, status, rfl⟩ := init_cases init
  let empty := Request.create life.args maxTokens structured status
  have orderedEmpty : Ordered empty.mmFeatures :=
    ordered_sublist _ _ (applyEvents_features _ _ request applied).sublist ordered
  have emptyMatches : Matches hasher life.identity empty
      ⟨life.promptTokens, life.args.mmFeatures, []⟩ := ⟨rfl, rfl, hashed, rfl, rfl⟩
  exact applyEvents_matches hasher positive life.identity life.events _ request _ applied ordered
    (hash_matches hasher positive orderedEmpty emptyMatches)

/-- The item that covers a position, and at which offset inside the item. -/
def coveringItem (features : List MultiModalFeatureSpec) (position : Nat) : Option (String × Nat) :=
  (features.find? fun item =>
    decide (item.mmPosition.offset ≤ position) && decide (position < itemEnd item)).map fun item =>
      (item.identifier, position - item.mmPosition.offset)

/-- What the KV content of the first blocks depends on is the same. -/
structure Agree (blockSize index : Nat) (first second : Request Digest) : Prop where
  tokens : first.allTokenIds.take ((index + 1) * blockSize) =
    second.allTokenIds.take ((index + 1) * blockSize)
  lora : first.loraRequest.map (·.loraName) = second.loraRequest.map (·.loraName)
  salt : first.cacheSalt = second.cacheSalt
  coverage : ∀ position, position < (index + 1) * blockSize →
    coveringItem first.mmFeatures position = coveringItem second.mmFeatures position

def HashSound (blockSize index : Nat) (first second : Request Digest) : Prop :=
  ∀ hash, first.blockHashes[index]? = some hash → second.blockHashes[index]? = some hash →
    Agree blockSize index first second

/-- Up to block `index` both requests hashed the same tokens under the same flat
keys, although they differ in LoRA adapter, salt, the placement of an item or the
tokens as they stand. -/
structure Confusable (blockSize index : Nat) (firstLife secondLife : Life Digest)
    (first second : Request Digest) : Prop where
  hashed : index < (firstLife.trace blockSize).chain.length
  flat : ∀ j, j ≤ index →
    (firstLife.trace blockSize).chain[j]? = (secondLife.trace blockSize).chain[j]?
  differ : first.loraRequest.map (·.loraName) ≠ second.loraRequest.map (·.loraName) ∨
    first.cacheSalt ≠ second.cacheSalt ∨
    (∃ position, position < (index + 1) * blockSize ∧
      coveringItem first.mmFeatures position ≠ coveringItem second.mmFeatures position) ∨
    first.allTokenIds.take ((index + 1) * blockSize) ≠
      second.allTokenIds.take ((index + 1) * blockSize)

theorem same_chain_of_hash (collisionFree : Function.Injective hasher.cachingHashFn)
    (first second : List (Payload Digest)) (index : Nat) (insideFirst : index < first.length) :
    (∃ hash, (digests hasher.cachingHashFn hasher.noneHash first)[index]? = some hash ∧
        (digests hasher.cachingHashFn hasher.noneHash second)[index]? = some hash) ↔
      ∀ j, j ≤ index → first[j]? = second[j]? := by
  constructor
  · rintro ⟨hash, atFirst, atSecond⟩
    have insideSecond : index < second.length := by
      have := (List.getElem?_eq_some_iff.mp atSecond).1
      rwa [digests_length] at this
    rw [digests_getElem? _ _ _ _ insideFirst, some.injEq] at atFirst
    rw [digests_getElem? _ _ _ _ insideSecond, some.injEq] at atSecond
    have sameLength : (first.take (index + 1)).length = (second.take (index + 1)).length := by
      rw [length_take, length_take]
      omega
    have sameTake := digest_injective_of_length collisionFree _ _ _ sameLength
      (atFirst.trans atSecond.symm)
    intro j inside
    rw [← getElem?_take_of_lt (Nat.lt_succ_of_le inside), sameTake,
      getElem?_take_of_lt (Nat.lt_succ_of_le inside)]
  · intro flat
    have insideSecond : index < second.length := by
      have := flat index (Nat.le_refl _)
      rw [getElem?_eq_getElem insideFirst] at this
      exact (List.getElem?_eq_some_iff.mp this.symm).1
    have sameTake : first.take (index + 1) = second.take (index + 1) := by
      apply ext_getElem?
      intro j
      by_cases inside : j < index + 1
      · rw [getElem?_take_of_lt inside, getElem?_take_of_lt inside,
          flat j (Nat.le_of_lt_succ inside)]
      · rw [getElem?_take_eq_none (Nat.le_of_not_lt inside),
          getElem?_take_eq_none (Nat.le_of_not_lt inside)]
    refine ⟨_, digests_getElem? _ _ _ _ insideFirst, ?_⟩
    rw [digests_getElem? _ _ _ _ insideSecond, sameTake]

/-- A digest that spells what it was computed from. -/
inductive Spelled where
  | root
  | link (parent : Spelled) (tokens : List Token) (extraKeys : Option (List (ExtraKey Spelled)))

def spelledHasher : BlockHasher Spelled where
  blockSize := 4
  cachingHashFn := fun (parent, tokens, extraKeys) => .link parent tokens extraKeys
  noneHash := .root

theorem spelled_injective : Function.Injective spelledHasher.cachingHashFn := by
  rintro ⟨parent, tokens, extraKeys⟩ ⟨parent', tokens', extraKeys'⟩ same
  obtain ⟨rfl, rfl, rfl⟩ := same
  rfl

def imageArgs (offset : Nat) : RequestArgs Spelled where
  requestId := offset
  promptTokenIds := some [7, 7, 7, 7]
  samplingParams := some ⟨1, 0, none, [], none, none⟩
  poolingParams := none
  clientIndex := 0
  arrivalTime := 0
  promptEmbeds := none
  mmFeatures := [⟨"image", ⟨offset, 2, none⟩⟩]
  loraRequest := none
  cacheSalt := none
  priority := 0
  structuredOutput := false
  blockHasher := some spelledHasher
  resumable := false

def imageRequest (offset : Nat) : Request Spelled := (Request.init (imageArgs offset)).get rfl

end VllmDcu.MultiModalHashes

import VllmDcu.Requests
import VllmDcu.HashChain

/-! What the block hasher computes. A request's blocks, each with its extra keys,
are the payloads of a hash chain from NONE_HASH, and `request_block_hasher`
extends the list of its digests by the blocks that are full and not hashed yet. -/
namespace VllmDcu.BlockHashes
open Requests HashChain List Option
variable {Digest : Type}

abbrev Payload (Digest : Type) := List Token × Option (List (ExtraKey Digest))

abbrev Labels (Digest : Type) := Nat → Option (List (ExtraKey Digest))

def blockTokens (blockSize : Nat) (tokens : List Token) (index : Nat) : List Token :=
  (tokens.drop (index * blockSize)).take blockSize

/-- The full blocks of a token list, block `j` with the extra keys `labels j`. -/
def payloads (blockSize : Nat) (labels : Labels Digest) (tokens : List Token) :
    List (Payload Digest) :=
  (List.range (tokens.length / blockSize)).map fun index =>
    (blockTokens blockSize tokens index, labels index)

variable (blockSize : Nat) (labels : Labels Digest) (tokens : List Token)

@[simp] theorem payloads_length :
    (payloads blockSize labels tokens).length = tokens.length / blockSize := by
  simp [payloads]

variable (index : Nat)

@[simp] theorem payloads_getElem? :
    (payloads blockSize labels tokens)[index]? =
      if index < tokens.length / blockSize then
        some (blockTokens blockSize tokens index, labels index)
      else none := by
  by_cases inside : index < tokens.length / blockSize
  · simp [payloads, inside]
  · simp [payloads, inside]

theorem blockTokens_congr (first second : List Token)
    (agree : first.take ((index + 1) * blockSize) = second.take ((index + 1) * blockSize)) :
    blockTokens blockSize first index = blockTokens blockSize second index := by
  have cut (tokens : List Token) : blockTokens blockSize tokens index =
      (tokens.take ((index + 1) * blockSize)).drop (index * blockSize) := by
    rw [blockTokens, take_drop, Nat.succ_mul]
  rw [cut, cut, agree]

/-- Prefixes of the payloads are the payloads of prefixes. -/
theorem payloads_take (count : Nat) (positive : 0 < blockSize)
    (inside : count ≤ tokens.length / blockSize) :
    (payloads blockSize labels tokens).take count =
      payloads blockSize labels (tokens.take (count * blockSize)) := by
  have fits : count * blockSize ≤ tokens.length := (Nat.le_div_iff_mul_le positive).mp inside
  apply ext_getElem?
  intro index
  have blocks : (tokens.take (count * blockSize)).length / blockSize = count := by
    rw [length_take, min_eq_left fits, Nat.mul_div_cancel _ positive]
  rw [payloads_getElem?, blocks]
  by_cases before : index < count
  · have bound : (index + 1) * blockSize ≤ count * blockSize := Nat.mul_le_mul_right _ before
    have same : blockTokens blockSize tokens index =
        blockTokens blockSize (tokens.take (count * blockSize)) index := by
      apply blockTokens_congr
      rw [take_take, min_eq_left bound]
    rw [getElem?_take_of_lt before, payloads_getElem?, same]
    simp [before, Nat.lt_of_lt_of_le before inside]
  · rw [getElem?_take_eq_none (Nat.le_of_not_lt before)]
    simp [before]

theorem payloads_prefix {first second : List Token} (positive : 0 < blockSize) {count : Nat}
    (insideFirst : count * blockSize ≤ first.length)
    (agree : first.take (count * blockSize) = second.take (count * blockSize)) :
    (payloads blockSize labels first).take count = (payloads blockSize labels second).take count := by
  have insideSecond : count * blockSize ≤ second.length := by
    have lengths := congrArg length agree
    simp only [length_take] at lengths
    omega
  rw [payloads_take _ _ _ _ positive ((Nat.le_div_iff_mul_le positive).mpr insideFirst),
    payloads_take _ _ _ _ positive ((Nat.le_div_iff_mul_le positive).mpr insideSecond), agree]

theorem payloads_drop_cons (inside : index < tokens.length / blockSize) :
    (payloads blockSize labels tokens).drop index =
      (blockTokens blockSize tokens index, labels index) ::
        (payloads blockSize labels tokens).drop (index + 1) := by
  rw [drop_eq_getElem_cons (by simpa using inside)]
  simp [payloads]

variable (hasher : BlockHasher Digest) (request : Request Digest)

/-- The hasher's loop from block `index` on: an invariant `cursorAt` of its item
cursor that every block keeps, and under which block `j` gets the extra keys
`labels j`, makes the loop hash the blocks with these labels. -/
theorem hashBlocksFrom_eq (positive : 0 < hasher.blockSize) (labels : Labels Digest)
    (cursorAt : Nat → Int → Prop) (index fuel : Nat) (prev : Option Digest) (cursor : Int)
    (labelled : ∀ j cursor, index ≤ j → cursorAt j cursor → ∃ next,
      generateBlockHashExtraKeys request (j * hasher.blockSize) ((j + 1) * hasher.blockSize)
        cursor = (labels j, next) ∧ cursorAt (j + 1) next) (start : cursorAt index cursor)
    (enough : request.numTokens / hasher.blockSize ≤ index + fuel) :
    hashBlocksFrom hasher request fuel (index * hasher.blockSize) prev cursor =
      digests hasher.cachingHashFn (prev.getD hasher.noneHash)
        ((payloads hasher.blockSize labels request.allTokenIds).drop index) := by
  induction fuel generalizing index prev cursor with
  | zero =>
    rw [drop_eq_nil_of_le (by simpa [Request.numTokens] using enough)]
    rfl
  | succ fuel ih =>
    have step : index * hasher.blockSize + hasher.blockSize = (index + 1) * hasher.blockSize :=
      (Nat.succ_mul _ _).symm
    by_cases inside : index < request.numTokens / hasher.blockSize
    · have fits : (index + 1) * hasher.blockSize ≤ request.numTokens :=
        (Nat.le_div_iff_mul_le positive).mp inside
      obtain ⟨next, keys, kept⟩ := labelled index cursor (Nat.le_refl _) start
      rw [payloads_drop_cons _ _ _ _ inside]
      simp only [hashBlocksFrom, step, Nat.not_lt.mpr fits, ↓reduceIte, digests, keys]
      rw [ih (index + 1) _ next (fun j cursor after => labelled j cursor (by omega)) kept
        (by omega)]
      rfl
    · have full : request.numTokens < (index + 1) * hasher.blockSize := by
        by_contra fits
        exact inside ((Nat.le_div_iff_mul_le positive).mpr (Nat.le_of_not_lt fits))
      rw [drop_eq_nil_of_le (by simpa [Request.numTokens] using inside)]
      simp [hashBlocksFrom, step, full, digests]

/-- Whatever chain the hashes so far spell, the hasher extends it by the blocks
that are full and not hashed yet. -/
theorem updateBlockHashes_eq (positive : 0 < hasher.blockSize)
    (hashed : request.blockHasher = some hasher) (chain : List (Payload Digest))
    (sofar : request.blockHashes = digests hasher.cachingHashFn hasher.noneHash chain)
    (labels : Labels Digest) (cursorAt : Nat → Int → Prop)
    (start : cursorAt chain.length (if chain.length = 0 then 0 else -1))
    (labelled : ∀ j cursor, chain.length ≤ j → cursorAt j cursor → ∃ next,
      generateBlockHashExtraKeys request (j * hasher.blockSize) ((j + 1) * hasher.blockSize)
        cursor = (labels j, next) ∧ cursorAt (j + 1) next) :
    request.updateBlockHashes.blockHashes = digests hasher.cachingHashFn hasher.noneHash
      (chain ++ (payloads hasher.blockSize labels request.allTokenIds).drop chain.length) := by
  have length : request.blockHashes.length = chain.length := by rw [sofar, digests_length]
  have parent : request.blockHashes.getLast?.getD hasher.noneHash =
      digest hasher.cachingHashFn hasher.noneHash chain := by
    rw [sofar, digests_getLast?]
  have first : (if chain.length * hasher.blockSize > 0 then (-1 : Int) else 0) =
      if chain.length = 0 then 0 else -1 := by
    rcases Nat.eq_zero_or_pos chain.length with zero | some
    · simp [zero]
    · simp [Nat.mul_pos some positive, Nat.pos_iff_ne_zero.mp some]
  have enough : request.numTokens / hasher.blockSize ≤ chain.length + request.numTokens :=
    Nat.le_trans (Nat.div_le_self _ _) (Nat.le_add_left _ _)
  have fresh : requestBlockHasher hasher request =
      digests hasher.cachingHashFn (request.blockHashes.getLast?.getD hasher.noneHash)
        ((payloads hasher.blockSize labels request.allTokenIds).drop chain.length) := by
    simp only [requestBlockHasher, length]
    rw [first]
    exact hashBlocksFrom_eq hasher request positive labels cursorAt _ _ _ _ labelled start enough
  simp only [Request.updateBlockHashes, Request.newBlockHashes, hashed]
  rw [fresh, parent, sofar, ← digests_append]

/-- What a hash of the request depends on. -/
def hashInputs (request : Request Digest) :=
  (request.blockHashes, request.blockHasher, request.allTokenIds, request.mmFeatures,
    request.loraRequest, request.cacheSalt, request.promptEmbeds)

theorem updateAsSession_hashInputs (session : Request Digest) (update : StreamingUpdate)
    (result : request.updateAsSession update = some session) :
    ∃ promptTokenIds, hashInputs session =
      hashInputs (request.cutAndExtend promptTokenIds update).updateBlockHashes := by
  unfold Request.updateAsSession at result
  cases prompt : request.promptTokenIds with
  | none => simp [prompt] at result
  | some promptTokenIds =>
    simp only [prompt, some.injEq] at result
    subst result
    exact ⟨promptTokenIds, rfl⟩

/-- The hashes of a request are those of its full blocks under `labels`. -/
def HashesOf (hasher : BlockHasher Digest) (labels : Labels Digest) (request : Request Digest) :
    Prop :=
  request.blockHashes = digests hasher.cachingHashFn hasher.noneHash
    (payloads hasher.blockSize labels request.allTokenIds)

theorem hashesOf_length {labels : Labels Digest} {request : Request Digest}
    (hashes : HashesOf hasher labels request) :
    request.blockHashes.length = request.numTokens / hasher.blockSize := by
  rw [hashes, digests_length, payloads_length]
  rfl

end VllmDcu.BlockHashes

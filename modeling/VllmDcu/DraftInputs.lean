import Mathlib.Data.Nat.Log
import VllmDcu.AttentionMetadata
import VllmDcu.DraftSteps

/-! How a drafter gets its inputs from a step of the target model: with the rejected tokens kept as padding,
or with the others selected on the CPU. `none` is an error. -/
namespace VllmDcu.DraftInputs
open RaggedArrays TensorRows AttentionMetadata List Option

/-- `PLACEHOLDER_TOKEN_ID` -/
def placeholderTokenId : Int := -1

structure CachedRequestState where
  /-- `none` for a prompt that is given as embeddings -/
  promptTokenIds : Option (List Int)
  numPromptTokens : Nat
  numComputedTokens : Nat
  outputTokenIds : List Int
  described : ∀ tokens ∈ promptTokenIds, tokens.length = numPromptTokens

namespace CachedRequestState
variable (state : CachedRequestState)

def numTokens : Nat := state.numPromptTokens + state.outputTokenIds.length

def getTokenId (idx : Nat) : Option Int :=
  if idx < state.numPromptTokens then state.promptTokenIds.bind fun tokens => tokens[idx]?
  else some (state.outputTokenIds[idx - state.numPromptTokens]?.getD (-1))

/-- The bookkeeping of the model runner. -/
def extend (sampledIds : List Int) : CachedRequestState :=
  { state with outputTokenIds := state.outputTokenIds ++ sampledIds }

end CachedRequestState

structure SpecDecodeMetadata where
  numDraftTokens : List Int
  cuNumDraftTokens : List Int

/-! Tensors. -/

/-- `triton.next_power_of_2` -/
def nextPowerOf2 (n : Nat) : Nat := if n ≤ 1 then n else 2 ^ ((n - 1).log2 + 1)

/-- `tensor[indices]`; a negative index is never used. -/
def takeAt {Value : Type} (tensor : List Value) (indices : List Int) : Option (List Value) :=
  (indices.mapM Int.toNat?).bind (gather tensor)

/-- `tensor[indices] = values` -/
def putAt {Value : Type} (tensor : List Value) (indices : List Int) (values : List Value) :
    Option (List Value) :=
  (indices.mapM Int.toNat?).bind fun places =>
    if ∀ place ∈ places, place < tensor.length then some (scatter tensor (places.zip values)) else none

/-- `tensor[:n] = values` -/
def setFront {Value : Type} (tensor values : List Value) : List Value :=
  values ++ tensor.drop values.length

theorem mapM_toNat (places : List Nat) :
    (places.map fun (place : Nat) => (place : Int)).mapM Int.toNat? = some places := by
  induction places with
  | nil => rfl
  | cons place places ih =>
    rw [map_cons, mapM_cons, ih]
    rfl

section Tensors
variable {Value : Type} (tensor : List Value)

theorem takeAt_natCast (places : List Nat) :
    takeAt tensor (places.map fun (place : Nat) => (place : Int)) = gather tensor places := by
  rw [takeAt, mapM_toNat]
  rfl

theorem putAt_natCast {places : List Nat} (values : List Value)
    (within : ∀ place ∈ places, place < tensor.length) :
    putAt tensor (places.map fun (place : Nat) => (place : Int)) values =
      some (scatter tensor (places.zip values)) := by
  rw [putAt, mapM_toNat]
  exact if_pos within

variable (values : List Value)

theorem setFront_get {i : Nat} (inside : i < values.length) :
    (setFront tensor values)[i]? = values[i]? :=
  getElem?_append_left inside

theorem setFront_length (fits : values.length ≤ tensor.length) :
    (setFront tensor values).length = tensor.length := by
  rw [setFront, length_append, length_drop]
  omega

/-- Stores to every place from the front on. -/
theorem putAt_front (fits : values.length ≤ tensor.length) :
    putAt tensor ((List.range values.length).map fun (place : Nat) => (place : Int)) values =
      some (setFront tensor values) := by
  rw [putAt_natCast]
  · congr 1
    induction values using reverseRecOn with
    | nil => rfl
    | append_singleton values value ih =>
      rw [length_append, length_singleton] at fits ⊢
      rw [range_succ, zip_append length_range, scatter, foldl_append]
      change (scatter tensor ((range values.length).zip values)).set values.length value = _
      rw [ih (by omega), setFront, setFront, set_append_right _ _ le_rfl, Nat.sub_self, drop_eq_getElem_cons (by omega),
        set_cons_zero, length_append, length_singleton, append_assoc]
      rfl
  · intro place member
    exact Nat.lt_of_lt_of_le (mem_range.mp member) fits

/-- Stores in range succeed. -/
theorem putAt_within {indices : List Int} (within : ∀ index ∈ indices, 0 ≤ index ∧ index < tensor.length) :
    ∃ after, putAt tensor indices values = some after ∧
      ∀ value ∈ after, value ∈ tensor ∨ value ∈ values := by
  have casts : indices = (indices.map Int.toNat).map fun (place : Nat) => (place : Int) := by
    rw [List.map_map]
    conv_lhs => rw [← List.map_id indices]
    exact map_congr_left fun index member => (Int.toNat_of_nonneg (within index member).1).symm
  have below : ∀ place ∈ indices.map Int.toNat, place < tensor.length := by
    intro place member
    obtain ⟨index, listed, rfl⟩ := List.mem_map.mp member
    have := within index listed
    omega
  refine ⟨_, by rw [casts, putAt_natCast tensor values below], ?_⟩
  intro value member
  obtain ⟨i, found⟩ := mem_iff_getElem?.mp member
  obtain ⟨length, _, each⟩ := scatter_scattered tensor ((indices.map Int.toNat).zip values)
    fun write listed => below _ (of_mem_zip listed).1
  have bound := (List.getElem?_eq_some_iff.mp found).1
  rcases each i (by omega) with ⟨write, listed, _, read⟩ | ⟨_, read⟩
  · rw [read] at found
    cases found
    exact Or.inr (of_mem_zip listed).2
  · rw [read] at found
    exact Or.inl (mem_of_getElem? found)

end Tensors

/-! The next tokens. -/

/-- A sampled token that was not rejected. -/
def isValid (vocabSize token : Int) : Bool := token ≠ placeholderTokenId ∧ token < vocabSize

/-- A program of `eagle_prepare_next_token_padded_kernel`: the next token and the number of valid ones. -/
def nextTokenProgram (vocabSize : Int) (row : List Int) (isDiscarded : Bool) (backupToken : Int) :
    Int × Int :=
  if isDiscarded then (backupToken, 0)
  else
    let lanes := (List.range (nextPowerOf2 row.length)).map fun off => (off, row[off]?.getD (-1))
    let isValidMask (lane : Nat × Int) : Bool := isValid vocabSize lane.2 ∧ lane.1 < row.length
    let validCount := lanes.countP isValidMask
    if validCount > 0 then
      let lastValidIndex :=
        (lanes.map fun lane => if isValidMask lane then (lane.1 : Int) else -1).foldl max (-1)
      ((lanes.map fun lane => if (lane.1 : Int) = lastValidIndex then lane.2 else 0).sum, validCount)
    else (backupToken, 0)

/-- A sum over lanes of which one counts. -/
theorem sum_single (size last : Nat) (value : Nat → Int) :
    ((List.range size).map fun (off : Nat) => if (off : Int) = last then value off else 0).sum =
      if last < size then value last else 0 := by
  induction size with
  | zero => rfl
  | succ size ih =>
    rw [range_succ, map_append, sum_append, ih, map_singleton, sum_singleton]
    by_cases here : last = size
    · subst here
      rw [if_neg (Nat.lt_irrefl last), if_pos rfl, if_pos (Nat.lt_succ_self last), Int.zero_add]
    · rw [if_neg (c := (size : Int) = last) (by omega), Int.add_zero]
      by_cases inside : last < size
      · rw [if_pos inside, if_pos (by omega)]
      · rw [if_neg inside, if_neg (by omega)]

theorem le_nextPowerOf2 (n : Nat) : n ≤ nextPowerOf2 n := by
  unfold nextPowerOf2
  split
  · exact le_rfl
  · have := Nat.lt_log2_self (n := n - 1)
    omega

/-- `tl.max` over lanes: the last one that counts. -/
theorem foldl_last (size : Nat) (mask : Nat → Bool) :
    ((List.range size).map fun off => if mask off then (off : Int) else -1).foldl max (-1) =
      ((List.range size).filter mask).getLast?.elim (-1) fun off => (off : Int) := by
  induction size with
  | zero => rfl
  | succ size ih =>
    rw [range_succ, map_append, foldl_append, ih, filter_append]
    have bound : ∀ off ∈ ((range size).filter mask).getLast?, off < size := by
      intro off last
      exact mem_range.mp (mem_filter.mp (mem_of_getLast? last)).1
    cases counts : mask size with
    | true =>
      rw [filter_cons_of_pos counts, filter_nil, getLast?_concat, elim_some]
      change max _ (if mask size then (size : Int) else -1) = size
      rw [if_pos counts]
      cases last : ((range size).filter mask).getLast? with
      | none => exact max_eq_right (by rw [elim_none]; omega)
      | some off =>
        have := bound off last
        exact max_eq_right (by rw [elim_some]; omega)
    | false =>
      rw [filter_cons_of_neg (by rw [counts]; exact Bool.false_ne_true), filter_nil, append_nil]
      change max _ (if mask size then (size : Int) else -1) = _
      rw [counts, if_neg Bool.false_ne_true]
      cases ((range size).filter mask).getLast? with
      | none => rfl
      | some off => exact max_eq_left (by rw [elim_some]; omega)

/-- The lanes of a row that count, those behind it masked out. -/
theorem filter_row {keep : Int → Bool} {row : List Int} {size : Nat} (fits : row.length ≤ size) :
    row.filter keep = ((List.range size).filter fun off =>
      decide (keep (row[off]?.getD (-1)) = true ∧ off < row.length)).map fun off => row[off]?.getD (-1) := by
  obtain ⟨rest, rfl⟩ := Nat.exists_eq_add_of_le fits
  have whole : row = (range row.length).map fun off => row[off]?.getD (-1) := by
    apply ext_getElem
    · rw [length_map, length_range]
    · intro off bound _
      rw [getElem_map, getElem_range, getElem?_eq_getElem bound, getD_some]
  have behind : ((range rest).map (row.length + ·)).filter (fun off =>
      decide (keep (row[off]?.getD (-1)) = true ∧ off < row.length)) = [] := by
    simp
  rw [range_add, filter_append, behind, append_nil]
  conv_lhs => rw [whole]
  rw [List.filter_map]
  congr 1
  apply filter_congr
  intro off listed
  simp [mem_range.mp listed]

/-- What a program computes in its lanes: the last valid token and how many there are. -/
theorem nextTokenProgram_eq (vocabSize : Int) (row : List Int) (isDiscarded : Bool) (backupToken : Int) :
    nextTokenProgram vocabSize row isDiscarded backupToken =
      (((if isDiscarded then [] else row.filter (isValid vocabSize)).getLast?).getD backupToken,
        ((if isDiscarded then [] else row.filter (isValid vocabSize)).length : Int)) := by
  cases isDiscarded with
  | true => rfl
  | false =>
    rw [nextTokenProgram, if_neg Bool.false_ne_true, if_neg Bool.false_ne_true,
      filter_row (le_nextPowerOf2 row.length)]
    generalize nextPowerOf2 row.length = size
    dsimp only
    rw [countP_map, countP_eq_length_filter, List.map_map, List.map_map, length_map, getLast?_map]
    change (if (List.filter (fun off => decide (isValid vocabSize (row[off]?.getD (-1)) = true ∧
        off < row.length)) (range size)).length > 0 then
      (((range size).map fun (off : Nat) => if (off : Int) = ((range size).map fun (off : Nat) =>
        if decide (isValid vocabSize (row[off]?.getD (-1)) = true ∧ off < row.length) then (off : Int)
        else -1).foldl max (-1) then row[off]?.getD (-1) else 0).sum, _) else _) = _
    rw [foldl_last]
    cases last : ((range size).filter fun off =>
        decide (isValid vocabSize (row[off]?.getD (-1)) = true ∧ off < row.length)).getLast? with
    | none =>
      rw [getLast?_eq_none_iff.mp last]
      rfl
    | some off =>
      have member := mem_of_getLast? last
      have summed := sum_single size off fun off => row[off]?.getD (-1)
      rw [if_pos (mem_range.mp (mem_filter.mp member).1)] at summed
      rw [if_pos (length_pos_of_mem member), map_some, getD_some]
      exact Prod.ext summed rfl

def prepareNextTokenIdsPadded (vocabSize : Int) (common : CommonAttentionMetadata)
    (sampledTokenIds : List (List Int)) (requests : List CachedRequestState)
    (discardRequestMask : List Bool) : Option (List Int × List Int) :=
  ((requests.zip common.seqLens).mapM fun (entry : CachedRequestState × Int) =>
      entry.1.getTokenId entry.2.toNat).map fun backups =>
    ((sampledTokenIds.zip (discardRequestMask.zip backups)).map fun (entry : List Int × Bool × Int) =>
      nextTokenProgram vocabSize entry.1 entry.2.1 entry.2.2).unzip

def prepareNextTokenIdsCpu (sampledTokenIds : List (List Int)) (requests : List CachedRequestState)
    (numScheduledTokens : List Nat) : Option (List Int) :=
  (sampledTokenIds.zip (requests.zip numScheduledTokens)).mapM fun entry =>
    match entry.1.getLast? with
    | some token => some token
    | none => entry.2.1.getTokenId (entry.2.1.numComputedTokens + entry.2.2)

/-! The metadata and the places of the tokens. -/

/-- A program of `eagle_prepare_inputs_padded_kernel`: the index to sample from and the number of rejected
tokens. -/
def inputsProgram (cuNumDraftTokens validSampledTokensCount queryStartLoc : List Int) (reqIdx : Nat) :
    Option (Int × Int) := do
  let cuDraftCurr ← cuNumDraftTokens[reqIdx]?
  let numDraftTokens ←
    if reqIdx = 0 then some cuDraftCurr
    else cuNumDraftTokens[reqIdx - 1]?.map fun cuDraftPrev => cuDraftCurr - cuDraftPrev
  let validCount ← validSampledTokensCount[reqIdx]?
  let nextStart ← queryStartLoc[reqIdx + 1]?
  let numRejectedTokens := if numDraftTokens > 0 then numDraftTokens + 1 - validCount else 0
  some (nextStart - 1 - numRejectedTokens, numRejectedTokens)

def prepareInputsPadded (common : CommonAttentionMetadata) (spec : SpecDecodeMetadata)
    (validSampledTokensCount : List Int) : Option (CommonAttentionMetadata × List Int × List Int) := do
  let programs ← (List.range common.numReqs).mapM
    (inputsProgram spec.cuNumDraftTokens validSampledTokensCount common.queryStartLoc)
  let totalNumTokens ← common.queryStartLoc.getLast?
  let maxQueryLen ← common.queryLens.max?
  let maxSeqLen ← common.seqLens.max?
  let specCommon := { common with
    numActualTokens := totalNumTokens
    maxQueryLen := maxQueryLen
    maxSeqLen := maxSeqLen
    slotMapping := common.slotMapping.take totalNumTokens.toNat
    causal := true }
  some (specCommon, programs.unzip)

def prepareInputs (common : CommonAttentionMetadata) (sampledTokenIds : List (List Int))
    (numDraftTokens : List Int) : Option (CommonAttentionMetadata × List Int) := do
  let numRejectedTokens := List.zipWith
    (fun (n : Int) (sampled : List Int) => if n > 0 then n + 1 - sampled.length else 0)
    numDraftTokens sampledTokenIds
  let newSeqLens := List.zipWith (fun len rejected => len - rejected) common.seqLens numRejectedTokens
  let newNumTokensPerReq :=
    List.zipWith (fun len rejected => len - rejected) common.queryLens numRejectedTokens
  let newQueryStartLoc := 0 :: cumsum newNumTokensPerReq
  let totalNumTokens ← newQueryStartLoc.getLast?
  let counts ← newNumTokensPerReq.mapM Int.toNat?
  let tokenOffsets := List.zipWith (fun (index : Nat) start => (index : Int) - start)
    (List.range totalNumTokens.toNat) (repeats newQueryStartLoc.dropLast counts)
  let tokenIndices := List.zipWith (fun offset start => offset + start) tokenOffsets
    (repeats common.queryStartLoc.dropLast counts)
  let slotMapping ← takeAt common.slotMapping tokenIndices
  let maxQueryLen ← common.queryLens.max?
  let maxSeqLen ← newSeqLens.max?
  let specCommon := { common with
    queryStartLoc := newQueryStartLoc
    seqLens := newSeqLens
    numActualTokens := totalNumTokens
    maxQueryLen := maxQueryLen
    maxSeqLen := maxSeqLen
    slotMapping := slotMapping
    causal := true }
  some (specCommon, tokenIndices)

end VllmDcu.DraftInputs

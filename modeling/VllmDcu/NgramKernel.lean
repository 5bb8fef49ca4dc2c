import VllmDcu.NgramBatches

/-! N-gram drafting as tensor operations. Every operation acts on each row of the batch by itself, so a
row is what is modelled; -1 stands for no token. Only `scatter_` leaves its outcome open. -/
namespace VllmDcu.NgramKernel
open TensorRows NgramBatches List Option

/-- `NgramProposerGPU`; the constructor's `_dummy_run` fails unless the last two hold. -/
structure ProposerGPU extends Proposer where
  maxN_le : maxN ≤ maxModelLen
  k_lt : k < maxModelLen

/-- One turn of the loop over the lengths: the first window that equals the last `ngramLen` tokens and
has a token after it, or -1. -/
def firstMatchPosition (tokenIds : List Int) (seqLength ngramLen : Nat) : Option Int :=
  (unfold tokenIds ngramLen).bind fun searchWindows =>
    let suffixStart : Int := seqLength - ngramLen
    let suffixIndices := (List.range ngramLen).map fun (j : Nat) => (max (suffixStart + j) 0).toNat
    (gather tokenIds suffixIndices).map fun suffix =>
      let maxValidSuffixStart : Int := seqLength - ngramLen - 1
      let finalMatches := searchWindows.mapIdx fun position window =>
        decide (window = suffix ∧ position ≤ maxValidSuffixStart)
      let firstMatchIdx := argmax finalMatches
      let hasMatch := finalMatches[firstMatchIdx]? = some true
      if hasMatch then (firstMatchIdx : Int) else -1

/-- The tokens after the longest n-gram with a match, and -1 from where they end. -/
def findFirstAndExtractAllNParallel (tokenIds : List Int) (seqLength minNgramLen maxNgramLen
    numDraftTokens : Nat) : Option (List Int) :=
  let numNgramSizes := maxNgramLen - minNgramLen + 1
  let ngramLengths := List.range' minNgramLen numNgramSizes
  (ngramLengths.mapM (firstMatchPosition tokenIds seqLength)).bind fun firstMatchPositions =>
    let bestNgramIdx := numNgramSizes - 1 -
      argmax (firstMatchPositions.map fun position => decide (0 ≤ position)).reverse
    firstMatchPositions[bestNgramIdx]?.bind fun bestMatchPos =>
      ngramLengths[bestNgramIdx]?.bind fun bestNgramLength =>
        let draftStart : Int := if 0 ≤ bestMatchPos then bestMatchPos + bestNgramLength else 0
        let tokensAvailable : Int := seqLength - draftStart
        let draftIndices := (List.range numDraftTokens).map fun (j : Nat) =>
          (min (max (draftStart + j) 0) (tokenIds.length - 1)).toNat
        (gather tokenIds draftIndices).map fun draftTokens =>
          draftTokens.mapIdx fun position token =>
            if 0 ≤ bestMatchPos then (if position < tokensAvailable then token else -1) else -1

namespace ProposerGPU

/-- The drafts of one row, and how many of them lead it without a -1. -/
def forward (proposer : ProposerGPU) (numTokens : Nat) (tokenIds : List Int) (combinedMask : Bool) :
    Option (List Int × Nat) :=
  (findFirstAndExtractAllNParallel tokenIds numTokens proposer.minN proposer.maxN proposer.k).map
    fun results =>
      let draftTokens := results.map fun token => if combinedMask then token else -1
      (draftTokens, leadingCount (draftTokens.map fun token => decide (token ≠ -1)))

end ProposerGPU

/-- One row of the four tensors that `propose` is given. -/
structure Row where
  numTokensNoSpec : Nat
  tokenIds : List Int
  validSampledTokenIds : List Int
  validSampledTokensCount : Nat

/-- The position and the value of each write of `scatter_`: where the mask does not hold, the value
that is there already. -/
def tokensToScatter (row : Row) : Option (List (Nat × Int)) :=
  let maxSeqLen := row.tokenIds.length
  row.validSampledTokenIds.zipIdx.mapM fun (token, offset) =>
    let writePosition := row.numTokensNoSpec + offset
    let scatterMask := offset < row.validSampledTokensCount ∧ token ≠ -1 ∧ writePosition < maxSeqLen
    let position := min writePosition (maxSeqLen - 1)
    row.tokenIds[position]?.map fun existing => (position, if scatterMask then token else existing)

/-- One row of what a call leaves and returns. -/
structure Result where
  tokenIds : List Int
  draftTokens : List Int
  numValidDraftTokens : Nat

/-- A call of `propose`, for one row. -/
def Proposes (proposer : ProposerGPU) (row : Row) (result : Result) : Prop :=
  (∃ writes, tokensToScatter row = some writes ∧ Scattered row.tokenIds writes result.tokenIds) ∧
    let numTokensTmp := row.numTokensNoSpec + row.validSampledTokensCount
    let combinedMask := decide (0 < row.validSampledTokensCount ∧ proposer.minN ≤ numTokensTmp)
    proposer.forward numTokensTmp result.tokenIds combinedMask =
      some (result.draftTokens, result.numValidDraftTokens)

/-- A call of `propose`, for the batch. -/
def ProposesBatch (proposer : ProposerGPU) (rows : List Row) (results : List Result) : Prop :=
  List.Forall₂ (Proposes proposer) rows results

/-! The windows. -/

section Matches
variable (tokenIds : List Int) (seqLength : Nat)

/-- The suffix is read in range, and is the last tokens when there are so many. -/
theorem gather_suffix (ngramLen : Nat) (fits : ngramLen ≤ tokenIds.length)
    (stored : seqLength ≤ tokenIds.length) :
    ∃ suffix, gather tokenIds ((List.range ngramLen).map fun (j : Nat) =>
        (max ((seqLength : Int) - ngramLen + j) 0).toNat) = some suffix ∧
      (ngramLen ≤ seqLength → suffix = (tokenIds.take seqLength).drop (seqLength - ngramLen)) := by
  by_cases short : ngramLen ≤ seqLength
  · refine ⟨_, gather_run tokenIds _ (seqLength - ngramLen) ngramLen (by omega) ?_, ?_⟩
    · omega
    · intro _
      rw [drop_take]
      congr 1
      omega
  · obtain ⟨suffix, gathered, _⟩ := gather_total tokenIds ((range ngramLen).map fun (j : Nat) =>
        (max ((seqLength : Int) - ngramLen + j) 0).toNat) (by
      intro i member
      obtain ⟨j, inside, rfl⟩ := List.mem_map.mp member
      have := mem_range.mp inside
      omega)
    exact ⟨suffix, gathered, fun enough => absurd enough short⟩

/-- A window that matches is an earlier place of the last tokens. -/
theorem window_recurs {ngramLen position : Nat} (stored : seqLength ≤ tokenIds.length)
    (room : position + ngramLen < seqLength) :
    (tokenIds.drop position).take ngramLen = (tokenIds.take seqLength).drop (seqLength - ngramLen) ↔
      NgramProposer.Recurs (tokenIds.take seqLength) ngramLen position := by
  have length : (tokenIds.take seqLength).length = seqLength := by
    rw [length_take]
    omega
  unfold NgramProposer.Recurs
  rw [length, drop_take (i := position), take_take, Nat.min_eq_left (by omega)]
  exact ⟨fun same => ⟨room, same⟩, fun recurs => recurs.2⟩

/-- The first place of the last `ngramLen` tokens, or -1 when they do not recur. -/
theorem firstMatchPosition_spec (ngramLen : Nat) (fits : ngramLen ≤ tokenIds.length)
    (stored : seqLength ≤ tokenIds.length) :
    ∃ position, firstMatchPosition tokenIds seqLength ngramLen = some position ∧
      ((position = -1 ∧ ∀ start, ¬ NgramProposer.Recurs (tokenIds.take seqLength) ngramLen start) ∨
        ∃ start : Nat, position = start ∧
          NgramProposer.Recurs (tokenIds.take seqLength) ngramLen start ∧
          ∀ other, NgramProposer.Recurs (tokenIds.take seqLength) ngramLen other → start ≤ other) := by
  have length : (tokenIds.take seqLength).length = seqLength := by
    rw [length_take]
    omega
  obtain ⟨windows, unfolded, count, read⟩ := unfold_spec tokenIds ngramLen fits
  obtain ⟨suffix, gathered, last⟩ := gather_suffix tokenIds seqLength ngramLen fits stored
  unfold firstMatchPosition
  rw [unfolded, bind_some]
  simp only [gathered, map_some]
  generalize flagged : windows.mapIdx (fun (position : Nat) window =>
    decide (window = suffix ∧ (position : Int) ≤ seqLength - ngramLen - 1)) = flags
  -- a flag is set where the last tokens recur
  have set_iff (start : Nat) : flags[start]? = some true ↔
      NgramProposer.Recurs (tokenIds.take seqLength) ngramLen start := by
    rw [← flagged, getElem?_mapIdx]
    by_cases room : start + ngramLen < seqLength
    · rw [read start (by omega), map_some, ← window_recurs tokenIds seqLength stored room, last (by omega),
        some.injEq, decide_eq_true_eq]
      exact ⟨fun set => set.1, fun same => ⟨same, by omega⟩⟩
    · constructor
      · intro set
        obtain ⟨window, _, decided⟩ := map_eq_some_iff.mp set
        have := (of_decide_eq_true decided).2
        omega
      · intro recurs
        have := recurs.1
        omega
  refine ⟨_, rfl, ?_⟩
  rcases argmax_spec flags with ⟨unset, _⟩ | ⟨set, before⟩
  · rw [if_neg (unset _)]
    exact Or.inl ⟨rfl, fun start recurs => unset start ((set_iff start).mpr recurs)⟩
  · rw [if_pos set]
    refine Or.inr ⟨_, rfl, (set_iff _).mp set, ?_⟩
    intro other recurs
    by_contra earlier
    exact before other (by omega) ((set_iff other).mpr recurs)

end Matches

/-! The drafts. -/

section Drafts
variable (tokenIds : List Int) (seqLength : Nat)

/-- Clamped indices are in range. -/
theorem gather_clamped (draftStart : Int) {numDraftTokens : Nat} (nonempty : 0 < tokenIds.length) :
    ∃ values, gather tokenIds ((List.range numDraftTokens).map fun (j : Nat) =>
        (min (max (draftStart + j) 0) (tokenIds.length - 1)).toNat) = some values ∧
      values.length = numDraftTokens ∧
      ∀ j < numDraftTokens,
        values[j]? = tokenIds[(min (max (draftStart + j) 0) (tokenIds.length - 1)).toNat]? := by
  obtain ⟨values, gathered, length, read⟩ := gather_total tokenIds
    ((range numDraftTokens).map fun (j : Nat) =>
      (min (max (draftStart + j) 0) (tokenIds.length - 1)).toNat) (by
    intro i member
    obtain ⟨j, _, rfl⟩ := List.mem_map.mp member
    omega)
  rw [length_map, length_range] at length
  refine ⟨values, gathered, length, ?_⟩
  intro j inside
  apply read
  rw [getElem?_map, getElem?_range inside, map_some]

/-- The values up to the end of the tokens, then -1. -/
theorem masked_drafts {start numDraftTokens : Nat} {values : List Int}
    (nonempty : 0 < tokenIds.length) (stored : seqLength ≤ tokenIds.length) (length : values.length = numDraftTokens)
    (read : ∀ j < numDraftTokens,
      values[j]? = tokenIds[(min (max ((start : Int) + j) 0) (tokenIds.length - 1)).toNat]?) :
    values.mapIdx (fun (position : Nat) token =>
        if (position : Int) < seqLength - (start : Int) then token else -1) =
      ((tokenIds.take seqLength).drop start).take numDraftTokens ++
        List.replicate (numDraftTokens - (seqLength - start)) (-1) := by
  apply ext_getElem?
  intro j
  have front : (((tokenIds.take seqLength).drop start).take numDraftTokens).length =
      min numDraftTokens (seqLength - start) := by
    rw [length_take, length_drop, length_take]
    omega
  rw [getElem?_mapIdx]
  by_cases inside : j < numDraftTokens
  · rw [read j inside]
    by_cases available : j < seqLength - start
    · have index : (min (max ((start : Int) + j) 0) (tokenIds.length - 1)).toNat = start + j := by omega
      have bound : start + j < tokenIds.length := by omega
      rw [index, getElem?_append_left (by omega), getElem?_take, if_pos inside,
        getElem?_drop, getElem?_take, if_pos (by omega), getElem?_eq_getElem bound,
        map_some, if_pos (by omega)]
    · have bound : (min (max ((start : Int) + j) 0) (tokenIds.length - 1)).toNat < tokenIds.length := by
        omega
      rw [getElem?_append_right (by omega), getElem?_replicate, if_pos (by omega),
        getElem?_eq_getElem bound, map_some, if_neg (by omega)]
  · rw [getElem?_eq_none (by omega), getElem?_eq_none (by
      rw [length_append, length_replicate]
      omega)]
    rfl

/-- What follows the chosen n-gram, or -1 only when nothing recurs. -/
theorem extract_spec {minNgramLen maxNgramLen numDraftTokens : Nat} (positive : 1 ≤ minNgramLen)
    (ordered : minNgramLen ≤ maxNgramLen) (fits : maxNgramLen ≤ tokenIds.length)
    (stored : seqLength ≤ tokenIds.length) :
    ∃ results, findFirstAndExtractAllNParallel tokenIds seqLength minNgramLen maxNgramLen
        numDraftTokens = some results ∧
      ((∀ n start, minNgramLen ≤ n → n ≤ maxNgramLen →
          ¬ NgramProposer.Recurs (tokenIds.take seqLength) n start) ∧
        results = List.replicate numDraftTokens (-1) ∨
      ∃ n start, NgramProposer.Chosen (tokenIds.take seqLength) minNgramLen maxNgramLen n start ∧
        results = ((tokenIds.take seqLength).drop (start + n)).take numDraftTokens ++
          List.replicate (numDraftTokens - (seqLength - (start + n))) (-1)) := by
  let sizes := maxNgramLen - minNgramLen + 1
  have lengths (i : Nat) (inside : i < sizes) :
      (range' minNgramLen sizes)[i]? = some (minNgramLen + i) := by
    rw [getElem?_range' inside, Nat.one_mul]
  obtain ⟨positions, mapped, count, read⟩ := mapM_total (range' minNgramLen sizes)
    (firstMatchPosition tokenIds seqLength) (by
      intro n member
      obtain ⟨least, most⟩ := mem_range'_1.mp member
      obtain ⟨position, found, _⟩ := firstMatchPosition_spec tokenIds seqLength n (by omega) stored
      exact ⟨position, found⟩)
  rw [length_range'] at count
  -- the position of each length, and whether it is one
  have each (i : Nat) (inside : i < sizes) : ∃ position : Int, positions[i]? = some position ∧
      ((position = -1 ∧
          ∀ start, ¬ NgramProposer.Recurs (tokenIds.take seqLength) (minNgramLen + i) start) ∨
        ∃ start : Nat, position = start ∧
          NgramProposer.Recurs (tokenIds.take seqLength) (minNgramLen + i) start ∧
          ∀ other, NgramProposer.Recurs (tokenIds.take seqLength) (minNgramLen + i) other →
            start ≤ other) := by
    obtain ⟨position, found, meaning⟩ :=
      firstMatchPosition_spec tokenIds seqLength (minNgramLen + i) (by omega) stored
    exact ⟨position, (read i _ (lengths i inside)).trans found, meaning⟩
  unfold findFirstAndExtractAllNParallel
  simp only
  rw [mapped, bind_some]
  generalize flagged : positions.map (fun position => decide (0 ≤ position)) = flags
  have flags_length : flags.length = sizes := by rw [← flagged, length_map, count]
  obtain ⟨bound, best⟩ := argmax_reverse flags (by omega)
  rw [flags_length] at bound best
  obtain ⟨position, found, meaning⟩ := each _ bound
  have flag_iff (i : Nat) : flags[i]? = some true ↔ ∃ position, positions[i]? = some position ∧
      0 ≤ position := by
    rw [← flagged, getElem?_map, map_eq_some_iff]
    exact exists_congr fun position => and_congr_right fun _ => decide_eq_true_iff
  rw [found, bind_some, lengths _ bound, bind_some]
  have nonempty : 0 < tokenIds.length := by omega
  rcases meaning with ⟨rfl, _⟩ | ⟨start, rfl, recurs, earliest⟩
  · -- the best length has no match, so no length has one
    obtain ⟨values, gathered, length, _⟩ := gather_clamped tokenIds 0 nonempty
    refine ⟨replicate numDraftTokens (-1), ?_, Or.inl ⟨?_, rfl⟩⟩
    · rw [if_neg (by decide), gathered, map_some]
      congr 1
      apply ext_getElem?
      intro j
      rw [getElem?_mapIdx, getElem?_replicate]
      by_cases inside : j < numDraftTokens
      · rw [getElem?_eq_getElem (by omega), map_some, if_pos inside, if_neg (by decide)]
      · rw [getElem?_eq_none (by omega), if_neg inside]
        rfl
    · intro n start least most recurs
      rcases best with unset | ⟨set, _⟩
      · obtain ⟨position, there, none⟩ := each (n - minNgramLen) (by omega)
        rw [show minNgramLen + (n - minNgramLen) = n by omega] at none
        rcases none with ⟨_, none⟩ | ⟨start, rfl, _⟩
        · exact none start recurs
        · exact unset _ ((flag_iff _).mpr ⟨_, there, by omega⟩)
      · obtain ⟨other, there, positive⟩ := (flag_iff _).mp set
        rw [found] at there
        cases there
        contradiction
  · have set : flags[sizes - 1 - argmax flags.reverse]? = some true :=
      (flag_iff _).mpr ⟨_, found, by omega⟩
    have longest : ∀ i, sizes - 1 - argmax flags.reverse < i → flags[i]? ≠ some true := by
      rcases best with unset | ⟨_, later⟩
      · exact absurd set (unset _)
      · exact later
    refine ⟨_, ?_, Or.inr ⟨minNgramLen + (sizes - 1 - argmax flags.reverse), start, ?_, rfl⟩⟩
    · rw [if_pos (by omega)]
      obtain ⟨values, gathered, length, drawn⟩ := gather_clamped tokenIds
        ((start + (minNgramLen + (sizes - 1 - argmax flags.reverse)) : Nat) : Int)
        nonempty
      have masked := masked_drafts tokenIds seqLength nonempty stored length drawn
      rw [← Int.natCast_add, gathered, map_some]
      congr 1
    · constructor
      · exact Nat.le_add_right _ _
      · omega
      · exact recurs
      · intro m other least most again
        by_contra longer
        obtain ⟨position, there, meaning⟩ := each (m - minNgramLen) (by omega)
        rw [show minNgramLen + (m - minNgramLen) = m by omega] at meaning
        rcases meaning with ⟨_, none⟩ | ⟨first, rfl, _⟩
        · exact none other again
        · exact longest (m - minNgramLen) (by omega) ((flag_iff _).mpr ⟨_, there, by omega⟩)
      · exact earliest

end Drafts

/-- Tokens lead the row up to the first -1. -/
theorem leadingCount_drafts (tokens : List Int) (rest : Nat) (valid : ∀ token ∈ tokens, 0 ≤ token) :
    leadingCount ((tokens ++ List.replicate rest (-1)).map fun token => decide (token ≠ -1)) =
      tokens.length := by
  rw [leadingCount_eq]
  induction tokens with
  | nil =>
    cases rest with
    | zero => rfl
    | succ rest => rfl
  | cons token tokens ih =>
    have positive := valid token mem_cons_self
    have set : id (decide (token ≠ -1)) = true := decide_eq_true (by omega)
    rw [cons_append, map_cons, takeWhile_cons_of_pos set, length_cons,
      length_cons, ih fun other member => valid other (mem_cons_of_mem token member)]

/-- The row's leading drafts are what follows the chosen n-gram, up to `k` tokens. -/
theorem ProposerGPU.forward_spec (proposer : ProposerGPU) (numTokens : Nat) (tokenIds : List Int)
    (combinedMask : Bool) (width : tokenIds.length = proposer.maxModelLen)
    (stored : numTokens ≤ proposer.maxModelLen)
    (valid : ∀ token ∈ tokenIds.take numTokens, 0 ≤ token) :
    ∃ draftTokens numValidDraftTokens,
      proposer.forward numTokens tokenIds combinedMask = some (draftTokens, numValidDraftTokens) ∧
      numValidDraftTokens ≤ draftTokens.length ∧
      (combinedMask = true → NgramProposer.FollowsChosen (tokenIds.take numTokens) proposer.minN
        proposer.maxN proposer.k (draftTokens.take numValidDraftTokens)) ∧
      (combinedMask = false → numValidDraftTokens = 0) := by
  obtain ⟨results, extracted, meaning⟩ := extract_spec tokenIds numTokens proposer.minN_pos proposer.minN_le (by rw [width]; exact proposer.maxN_le) (by omega)
  unfold forward
  rw [extracted, map_some]
  cases combinedMask with
  | false =>
    refine ⟨_, _, rfl, ?_, nofun, fun _ => ?_⟩
    · exact Nat.le_trans countP_le_length (by rw [length_range, length_map])
    · have masked : results.map (fun token => if false = true then token else -1) =
          [] ++ replicate results.length (-1) := by
        exact map_const' ..
      rw [masked]
      exact leadingCount_drafts [] results.length nofun
  | true =>
    have same : results.map (fun token => if true = true then token else -1) = results :=
      List.map_id results
    rw [same]
    refine ⟨_, _, rfl, ?_, fun _ => ?_, nofun⟩
    · exact Nat.le_trans countP_le_length (by rw [length_range, length_map])
    · rcases meaning with ⟨none, rfl⟩ | ⟨n, start, chosen, rfl⟩
      · refine Or.inr ⟨Or.inr none, ?_⟩
        have count := leadingCount_drafts [] proposer.k nofun
        rw [nil_append, length_nil] at count
        rw [count, take_zero]
      · rw [leadingCount_drafts _ _ fun token member => valid token
          (mem_of_mem_drop (mem_of_mem_take member)), take_left]
        by_cases drawn : 0 < proposer.k
        · refine Or.inl ⟨by omega, n, start, chosen, ?_⟩
          rw [Int.toNat_natCast]
        · refine Or.inr ⟨Or.inl (by omega), ?_⟩
          rw [show proposer.k = 0 by omega, take_zero]

end VllmDcu.NgramKernel

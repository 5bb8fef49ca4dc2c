import VllmDcu.PaddedDrafting

/-! The first pass without extra slots: both ways of preparing it give every request the same inputs. -/
namespace VllmDcu.PaddedDrafting
open RaggedArrays TensorRows AttentionMetadata DraftInputs FirstPass List Function

variable {Hidden : Type} {batch : Batch Hidden}

/-! The next tokens. -/

section NextTokens

/-- The token after a partial prefill may be unknown; any other request has sampled one. -/
theorem discarded_of_unknown {i : Nat} (unknown : batch.backupToken i = none) :
    batch.discarded i = true := by
  rw [Batch.backupToken, CachedRequestState.getTokenId] at unknown
  split at unknown
  · rename_i inPrompt
    apply decide_eq_true
    rw [CachedRequestState.numTokens]
    omega
  · cases unknown

theorem common_seqLens : batch.common.seqLens = column batch.numReqs fun i => (batch.seqLen i : Int) := rfl

theorem paddedTokens_eq (known : ∀ i < batch.numReqs, batch.backupToken i ≠ none) :
    batch.paddedTokens = some (column batch.numReqs batch.nextToken,
      counts batch.numReqs fun i => (batch.validTokens i).length) := by
  have backups : ((column batch.numReqs batch.request).zip batch.common.seqLens).mapM
      (fun (entry : CachedRequestState × Int) => entry.1.getTokenId entry.2.toNat) =
        some (column batch.numReqs fun i => (batch.backupToken i).getD 0) := by
    rw [common_seqLens, zip_column]
    apply mapM_column
    intro i inside
    obtain ⟨token, read⟩ := Option.ne_none_iff_exists'.mp (known i inside)
    rw [read]
    exact read
  rw [Batch.paddedTokens, prepareNextTokenIdsPadded, backups, Option.map_some, zip_column, zip_column,
    map_column, unzip_eq_map, map_column, map_column]
  congr 2
  · exact column_congr fun i _ => congrArg Prod.fst (nextTokenProgram_eq ..)
  · exact column_congr fun i _ => congrArg Prod.snd (nextTokenProgram_eq ..)

section Cpu
variable (proper : batch.Proper)
include proper

/-- On the CPU the valid tokens are the same. -/
theorem validSampledTokenIds_eq :
    batch.validSampledTokenIds = column batch.numReqs batch.validTokens := by
  apply column_congr
  intro i inside
  unfold Batch.validTokens
  split
  · rfl
  · split
    · rename_i single
      rw [Batch.sampledRow, single]
      change [batch.sampled i 0] = [batch.sampled i 0].filter _
      rw [filter_cons_of_pos (proper.inVocabulary single i inside)]
      rfl
    · rfl

/-- The token of one request on the CPU: the next one, or what the prompt has. -/
theorem cpuTokens_eq : batch.cpuTokens = (List.range batch.numReqs).mapM fun i =>
    if batch.validTokens i = [] then batch.backupToken i else some (batch.nextToken i) := by
  rw [Batch.cpuTokens, validSampledTokenIds_eq proper, zipWith_column, prepareNextTokenIdsCpu, zip_column,
    zip_column, column, mapM_map]
  congr 1
  funext i
  rw [comp_apply, Batch.nextToken]
  cases last : (batch.validTokens i).getLast? with
  | none =>
    have empty := getLast?_eq_none_iff.mp last
    rw [if_pos empty, empty, CachedRequestState.extend, append_nil]
    rfl
  | some token =>
    rw [if_neg (ne_nil_of_mem (mem_of_getLast? last)), Option.getD_some]

theorem cpuTokens_known (known : ∀ i < batch.numReqs, batch.backupToken i ≠ none) :
    batch.cpuTokens = some (column batch.numReqs batch.nextToken) := by
  rw [cpuTokens_eq proper]
  apply mapM_some
  intro i listed
  split
  · rename_i empty
    obtain ⟨token, read⟩ := Option.ne_none_iff_exists'.mp (known i (mem_range.mp listed))
    rw [Batch.nextToken, empty, read]
    rfl
  · rfl

/-- An unknown token stops both. -/
theorem passes_unknown (self : Proposer Hidden) {i : Nat} (inside : i < batch.numReqs)
    (unknown : batch.backupToken i = none) :
    paddedPass self batch = none ∧ unpaddedPass self batch = none := by
  have listed := mem_range.mpr inside
  constructor
  · have member : (batch.request i, (batch.seqLen i : Int)) ∈
        column batch.numReqs fun i => (batch.request i, (batch.seqLen i : Int)) :=
      mem_map.mpr ⟨i, listed, rfl⟩
    have fails : batch.paddedTokens = none := by
      rw [Batch.paddedTokens, prepareNextTokenIdsPadded, common_seqLens, zip_column, mapM_none member unknown]
      rfl
    rw [paddedPass, fails]
    rfl
  · have fails : batch.cpuTokens = none := by
      rw [cpuTokens_eq proper]
      apply mapM_none listed
      have empty : batch.validTokens i = [] := if_pos (discarded_of_unknown unknown)
      rw [if_pos empty, unknown]
    rw [unpaddedPass, fails]
    rfl

end Cpu
end NextTokens

/-! One pass. -/

/-- The places that a pass with `count i` tokens of each request samples from. -/
def lastPlace (batch : Batch Hidden) (count : Nat → Nat) (i : Nat) : Nat :=
  rowStart count i + (batch.kept i - 1)

section Pass
variable {count : Nat → Nat} {target : Target Hidden} {common : CommonAttentionMetadata}
  {sample rejected : Option (List Int)}

/-- What a pass starts from: the requests one after another, the kept tokens of each in front. -/
structure Laid (batch : Batch Hidden) (count : Nat → Nat) (target : Target Hidden)
    (common : CommonAttentionMetadata) (sample rejected : Option (List Int)) : Prop where
  covers : ∀ i < batch.numReqs, 0 < batch.kept i ∧ batch.kept i ≤ count i
  tokens : target = ⟨ragged batch.numReqs count batch.inputId, ragged batch.numReqs count batch.position,
    ragged batch.numReqs count batch.hiddenState⟩
  slots : common.slotMapping = ragged batch.numReqs count batch.slot
  table : common.blockTable = column batch.numReqs fun i => column batch.numBlocks (batch.block i)
  samples : sample.getD (common.queryStartLoc.tail.map fun loc => loc - 1) =
    counts batch.numReqs (lastPlace batch count)
  lens : rejected = none ∧ common.seqLens = column batch.numReqs (fun i =>
        (batch.seqLen i : Int) - batch.numRejected i) ∨
      rejected = some (counts batch.numReqs batch.numRejected) ∧
        common.seqLens = column batch.numReqs fun i => (batch.seqLen i : Int)

variable (laid : Laid batch count target common sample rejected)
include laid

/-- The kept tokens are in range. -/
theorem Laid.place_lt {i j : Nat} (inside : i < batch.numReqs) (kept : j < batch.kept i) :
    rowStart count i + j < rowStart count batch.numReqs :=
  RaggedArrays.place_lt inside (Nat.lt_of_lt_of_le kept (laid.covers i inside).2)

theorem Laid.lastPlace_lt {i : Nat} (inside : i < batch.numReqs) :
    lastPlace batch count i < rowStart count batch.numReqs :=
  laid.place_lt inside (Nat.sub_one_lt_of_lt (laid.covers i inside).1)

/-- What a buffer holds of a kept token. -/
theorem Laid.front {Value : Type} (buffer : List Value) (entry : Nat → Nat → Value) {i j : Nat}
    (inside : i < batch.numReqs) (kept : j < batch.kept i) :
    (setFront buffer (ragged batch.numReqs count entry))[rowStart count i + j]? = some (entry i j) := by
  rw [setFront_get _ _ (by rw [ragged_length]; exact laid.place_lt inside kept)]
  exact ragged_get entry inside (Nat.lt_of_lt_of_le kept (laid.covers i inside).2)

/-- The rotated ids, the next token at the last kept place. -/
theorem Laid.inputIds (buffer : List Int) (fits : rowStart count batch.numReqs ≤ buffer.length) :
    ∃ inputIds, putAt (setFront buffer target.tokenIds.tail)
        (sample.getD (common.queryStartLoc.tail.map fun loc => loc - 1))
        (column batch.numReqs batch.nextToken) = some inputIds ∧
      ∀ i < batch.numReqs, ∀ j < batch.kept i,
        inputIds[rowStart count i + j]? = (batch.input i j).tokenId := by
  have length : target.tokenIds.tail.length = rowStart count batch.numReqs - 1 := by
    rw [laid.tokens, length_tail, ragged_length]
  have whole : (setFront buffer target.tokenIds.tail).length = buffer.length :=
    setFront_length _ _ (by omega)
  have within : ∀ place ∈ column batch.numReqs (lastPlace batch count),
      place < (setFront buffer target.tokenIds.tail).length := by
    intro place member
    obtain ⟨i, listed, rfl⟩ := mem_map.mp member
    have := laid.lastPlace_lt (mem_range.mp listed)
    omega
  refine ⟨_, by rw [laid.samples, counts, ← map_column, putAt_natCast _ _ within], ?_⟩
  rw [zip_column]
  have scattered := scatter_scattered (setFront buffer target.tokenIds.tail)
    (column batch.numReqs fun i => (lastPlace batch count i, batch.nextToken i)) (by
    intro write member
    obtain ⟨i, listed, rfl⟩ := mem_map.mp member
    exact within _ (mem_map.mpr ⟨i, listed, rfl⟩))
  intro i inside j kept
  have covered := laid.covers i inside
  -- a write at this place is this request's own
  have own : ∀ write ∈ column batch.numReqs (fun i => (lastPlace batch count i, batch.nextToken i)),
      write.1 = rowStart count i + j → j = batch.kept i - 1 ∧ write.2 = batch.nextToken i := by
    intro write member same
    obtain ⟨i', listed, rfl⟩ := mem_map.mp member
    have inside' := mem_range.mp listed
    have covered' := laid.covers i' inside'
    obtain ⟨rfl, rfl⟩ := place_inj inside' (by omega) inside (by omega) same
    exact ⟨rfl, rfl⟩
  rw [Batch.input]
  by_cases last : j + 1 = batch.kept i
  · have place : j = batch.kept i - 1 := by omega
    rw [if_pos last, place]
    subst place
    exact scattered.written _ (mem_map.mpr ⟨i, mem_range.mpr inside, rfl⟩)
      fun other member same => (own other member same).2
  · rw [if_neg last]
    apply scattered.kept
    · have next : j + 1 < count i := by omega
      have bound := RaggedArrays.place_lt inside next
      rw [setFront_get _ _ (by omega), laid.tokens, getElem?_tail]
      exact ragged_get batch.inputId inside next
    · intro write member same
      have := (own write member same).1
      omega

theorem Laid.prepared (self : Proposer Hidden) (fits : rowStart count batch.numReqs ≤ self.inputIds.length) :
    ∃ pass, self.rotateInputs target (column batch.numReqs batch.nextToken) sample common = some pass ∧
      Prepared batch count pass rejected := by
  obtain ⟨inputIds, put, rotated⟩ := laid.inputIds self.inputIds fits
  refine ⟨_, by rw [Proposer.rotateInputs, put]; rfl, ?_, ?_, ?_⟩
  · intro i inside j kept
    have slot := ragged_get batch.slot inside (Nat.lt_of_lt_of_le kept (laid.covers i inside).2)
    rw [inputAt, rotated i inside j kept, laid.tokens, laid.front _ _ inside kept, laid.slots, slot,
      laid.front _ _ inside kept]
    rfl
  · intro i inside
    refine ⟨(laid.covers i inside).1, ?_⟩
    rw [laid.samples, counts, column_get inside]
    rfl
  · have taken : takeAt (setFront self.positions target.positions)
        (sample.getD (common.queryStartLoc.tail.map fun loc => loc - 1)) =
          some (column batch.numReqs fun i => batch.position i (batch.kept i - 1)) := by
      rw [laid.samples, counts, ← map_column, takeAt_natCast, laid.tokens]
      apply mapM_column
      intro i inside
      exact laid.front _ _ inside (Nat.sub_one_lt_of_lt (laid.covers i inside).1)
    rw [laterRows, taken, laid.table]
    change some (DraftSteps.withoutRejected _ rejected) = _
    rcases laid.lens with ⟨rfl, lens⟩ | ⟨rfl, lens⟩
    · rw [lens, zip_column, zip_column, map_column]
      rfl
    · rw [lens, zip_column, zip_column, map_column, DraftSteps.withoutRejected, counts, zipWith_column]

end Pass
/-! What the metadata of the step says. -/

section Metadata

theorem common_queryStartLoc :
    batch.common.queryStartLoc = counts (batch.numReqs + 1) (rowStart batch.queryLen) :=
  starts_counts ..

theorem common_queryLens : batch.common.queryLens = counts batch.numReqs batch.queryLen :=
  diffs_cumsumFrom 0 _

/-- The last tokens of the requests. -/
theorem lastTokens {rows : Nat} {count : Nat → Nat} (some_ : ∀ i < rows, 0 < count i) :
    ((0 :: cumsum (counts rows count)).tail.map fun loc => loc - 1) =
      counts rows fun i => rowStart count i + (count i - 1) := by
  rw [tail_cons, cumsum_natCast, counts, map_column]
  apply column_congr
  intro i inside
  have := some_ i inside
  have := start_succ count i
  dsimp only
  omega

theorem kept_withoutDrafts {i : Nat} (none : batch.numDraftTokens i = 0) :
    batch.numRejected i = 0 ∧ batch.kept i = batch.queryLen i := by
  have rejected : batch.numRejected i = 0 := if_neg (by omega)
  rw [Batch.kept, rejected]
  exact ⟨rfl, rfl⟩

/-- What the CPU selects. -/
def keptTarget (batch : Batch Hidden) : Target Hidden where
  tokenIds := ragged batch.numReqs batch.kept batch.inputId
  positions := ragged batch.numReqs batch.kept batch.position
  hiddenStates := ragged batch.numReqs batch.kept batch.hiddenState

def keptIndices (batch : Batch Hidden) : List Int :=
  (ragged batch.numReqs batch.kept fun i j => rowStart batch.queryLen i + j).map fun (place : Nat) => (place : Int)

def keptCommon (batch : Batch Hidden) : CommonAttentionMetadata :=
  let seqLens := column batch.numReqs fun i => (batch.seqLen i : Int) - batch.numRejected i
  { batch.common with
    queryStartLoc := 0 :: cumsum (counts batch.numReqs batch.kept)
    seqLens := seqLens
    numActualTokens := rowStart batch.kept batch.numReqs
    maxSeqLen := seqLens.max?.getD 0
    slotMapping := ragged batch.numReqs batch.kept batch.slot }

variable (proper : batch.Proper)
include proper

theorem kept_spec {i : Nat} (inside : i < batch.numReqs) :
    0 < batch.kept i ∧ batch.kept i + batch.numRejected i = batch.queryLen i ∧
      (batch.numRejected i : Int) = if (batch.numDraftTokens i : Int) > 0 then
        (batch.numDraftTokens i : Int) + 1 - (batch.validTokens i).length else 0 := by
  have scheduled := proper.scheduled i inside
  rw [Batch.kept, Batch.numRejected]
  by_cases drafts : 0 < batch.numDraftTokens i
  · obtain ⟨fewer, nonempty, bound⟩ := proper.drafted i inside drafts
    have := length_pos_iff.mpr nonempty
    rw [if_pos drafts, if_pos (by omega)]
    omega
  · rw [if_neg drafts, if_neg (by omega)]
    omega

/-- A batch has a longest request. -/
theorem max_known (value : Nat → Int) :
    (column batch.numReqs value).max? = some ((column batch.numReqs value).max?.getD 0) := by
  cases found : (column batch.numReqs value).max? with
  | none =>
    have empty := congrArg length (max?_eq_none_iff.mp found)
    have := proper.nonempty
    rw [column_length, length_nil] at empty
    omega
  | some longest => rfl

/-- The program of one request. -/
theorem inputsProgram_eq {i : Nat} (inside : i < batch.numReqs) :
    inputsProgram (cumsum (counts batch.numReqs batch.numDraftTokens))
        (counts batch.numReqs fun i => (batch.validTokens i).length) batch.common.queryStartLoc i =
      some ((lastPlace batch batch.queryLen i : Int), (batch.numRejected i : Int)) := by
  obtain ⟨positive, parts, rejected⟩ := kept_spec proper inside
  have stop := start_succ batch.queryLen i
  have own := start_succ batch.numDraftTokens i
  rw [inputsProgram, cumsum_natCast, common_queryStartLoc, counts, counts, counts, column_get inside,
    column_get inside, column_get (Nat.succ_lt_succ inside), stop, lastPlace]
  cases i with
  | zero =>
    have drafts : (rowStart batch.numDraftTokens (0 + 1) : Int) = batch.numDraftTokens 0 := by
      rw [own]
      exact congrArg Nat.cast (Nat.zero_add _)
    rw [drafts]
    simp only [Option.bind_eq_bind, Option.bind_some, if_true, ← rejected]
    congr 2
    omega
  | succ i =>
    have drafts : (rowStart batch.numDraftTokens (i + 1 + 1) : Int) -
        rowStart batch.numDraftTokens (i + 1) = batch.numDraftTokens (i + 1) := by
      omega
    rw [Nat.add_sub_cancel, column_get (by omega)]
    simp only [Option.bind_eq_bind, Option.bind_some, Option.map_some, if_neg (Nat.succ_ne_zero i), drafts,
      ← rejected]
    congr 2
    omega

/-- The padded metadata are those of the target model. -/
theorem prepareInputsPadded_eq :
    prepareInputsPadded batch.common
        ⟨counts batch.numReqs batch.numDraftTokens, cumsum (counts batch.numReqs batch.numDraftTokens)⟩
        (counts batch.numReqs fun i => (batch.validTokens i).length) =
      some (batch.common, counts batch.numReqs (lastPlace batch batch.queryLen),
        counts batch.numReqs batch.numRejected) := by
  have programs : (range batch.common.numReqs).mapM
      (inputsProgram (cumsum (counts batch.numReqs batch.numDraftTokens))
        (counts batch.numReqs fun i => (batch.validTokens i).length) batch.common.queryStartLoc) =
      some (column batch.numReqs fun i =>
        ((lastPlace batch batch.queryLen i : Int), (batch.numRejected i : Int))) :=
    mapM_some _ _ _ fun i listed => inputsProgram_eq proper (mem_range.mp listed)
  have total : batch.common.queryStartLoc.getLast? = some (rowStart batch.queryLen batch.numReqs : Int) := by
    rw [common_queryStartLoc, counts, column_succ, getLast?_concat]
  have whole : batch.common.slotMapping.take (rowStart batch.queryLen batch.numReqs : Int).toNat =
      batch.common.slotMapping :=
    take_of_length_le (ragged_length batch.numReqs batch.queryLen batch.slot).le
  have queries : batch.common.queryLens.max? = some batch.common.maxQueryLen := by
    rw [common_queryLens]
    exact max_known proper _
  have lens : batch.common.seqLens.max? = some batch.common.maxSeqLen := max_known proper _
  rw [prepareInputsPadded, programs, total, queries, lens]
  simp only [Option.bind_eq_bind, Option.bind_some, unzip_eq_map, map_column]
  rw [whole]
  rfl

/-- Selecting the kept tokens. -/
theorem takeAt_kept {Value : Type} (entry : Nat → Nat → Value) :
    takeAt (ragged batch.numReqs batch.queryLen entry) (keptIndices batch) =
      some (ragged batch.numReqs batch.kept entry) := by
  rw [keptIndices, takeAt_natCast]
  apply mapM_ragged
  intro i inside j kept
  have := kept_spec proper inside
  exact ragged_get entry inside (by omega)

theorem selectTarget_kept : selectTarget batch.target (keptIndices batch) = some (keptTarget batch) := by
  rw [selectTarget, Batch.target, takeAt_kept proper, takeAt_kept proper, takeAt_kept proper]
  rfl

/-- The CPU takes the tokens that were kept. -/
theorem prepareInputs_eq :
    prepareInputs batch.common (column batch.numReqs batch.validTokens)
        (counts batch.numReqs batch.numDraftTokens) =
      some (keptCommon batch, keptIndices batch) := by
  have rejected : zipWith
      (fun (n : Int) (sampled : List Int) => if n > 0 then n + 1 - sampled.length else 0)
      (counts batch.numReqs batch.numDraftTokens) (column batch.numReqs batch.validTokens) =
        counts batch.numReqs batch.numRejected := by
    rw [counts, zipWith_column]
    exact column_congr fun i inside => (kept_spec proper inside).2.2.symm
  have tokens : zipWith (fun len rejected => len - rejected) batch.common.queryLens
      (counts batch.numReqs batch.numRejected) = counts batch.numReqs batch.kept := by
    rw [common_queryLens, counts, counts, zipWith_column]
    apply column_congr
    intro i inside
    have := kept_spec proper inside
    omega
  have lens : zipWith (fun len rejected => len - rejected) batch.common.seqLens
      (counts batch.numReqs batch.numRejected) = (keptCommon batch).seqLens :=
    zipWith_column ..
  have counted : (counts batch.numReqs batch.kept).mapM Int.toNat? = some (column batch.numReqs batch.kept) :=
    mapM_column _ _ _ _ fun _ _ => rfl
  have indices : zipWith (fun offset start => offset + start)
      (zipWith (fun (index : Nat) start => (index : Int) - start)
        (range (rowStart batch.kept batch.numReqs))
        (repeats (counts batch.numReqs (rowStart batch.kept)) (column batch.numReqs batch.kept)))
      (repeats (counts batch.numReqs (rowStart batch.queryLen)) (column batch.numReqs batch.kept)) =
      keptIndices batch := by
    rw [counts, counts, repeats_column, repeats_column, range_ragged, zipWith_ragged, zipWith_ragged,
      keptIndices, map_ragged]
    apply ragged_congr
    intro i _ j _
    omega
  have slots : takeAt batch.common.slotMapping (keptIndices batch) = some (keptCommon batch).slotMapping :=
    takeAt_kept proper batch.slot
  have split (count : Nat → Nat) : counts (batch.numReqs + 1) (rowStart count) =
      counts batch.numReqs (rowStart count) ++ [(rowStart count batch.numReqs : Int)] :=
    column_succ ..
  have queries : batch.common.queryLens.max? = some batch.common.maxQueryLen := by
    rw [common_queryLens]
    exact max_known proper _
  have longest : (keptCommon batch).seqLens.max? = some (keptCommon batch).maxSeqLen := max_known proper _
  rw [prepareInputs, rejected, tokens, lens, counted, queries, longest, starts_counts, common_queryStartLoc,
    split, split, getLast?_concat, dropLast_concat, dropLast_concat]
  simp only [Option.bind_eq_bind, Option.bind_some, Int.toNat_natCast, indices, slots]
  rw [← split, ← starts_counts]
  rfl

end Metadata

/-! Both ways. -/

section Passes
variable (self : Proposer Hidden) (proper : batch.Proper)
include proper

theorem laid_withoutDrafts (none : ∀ i < batch.numReqs, batch.numDraftTokens i = 0) :
    Laid batch batch.queryLen batch.target batch.common .none .none where
  covers := by
    intro i inside
    have := kept_spec proper inside
    omega
  tokens := rfl
  slots := rfl
  table := rfl
  samples := by
    rw [Option.getD_none, Batch.common, lastTokens proper.scheduled]
    apply column_congr
    intro i inside
    rw [lastPlace, (kept_withoutDrafts (none i inside)).2]
  lens := by
    refine Or.inl ⟨rfl, ?_⟩
    apply column_congr
    intro i inside
    rw [(kept_withoutDrafts (none i inside)).1]
    exact (Int.sub_zero _).symm

omit proper in
theorem takeTarget_whole :
    takeTarget batch.target batch.common.numActualTokens.toNat = batch.target := by
  have whole {Value : Type} (entry : Nat → Nat → Value) :
      (ragged batch.numReqs batch.queryLen entry).take (rowStart batch.queryLen batch.numReqs) =
        ragged batch.numReqs batch.queryLen entry :=
    take_of_length_le (ragged_length batch.numReqs batch.queryLen entry).le
  rw [takeTarget, Batch.common, Int.toNat_natCast, Batch.target, whole, whole, whole]

/-- What the padded pass is called with. -/
theorem paddedPass_eq (known : ∀ i < batch.numReqs, batch.backupToken i ≠ none) :
    ∃ sample rejected, Laid batch batch.queryLen batch.target batch.common sample rejected ∧
      (launch self batch rejected).1.queryEndLoc = counts batch.numReqs (lastPlace batch batch.queryLen) ∧
      paddedPass self batch = (self.setInputsFirstPass batch.target (column batch.numReqs batch.nextToken)
        sample batch.common rejected).map fun pass => (pass, rejected) := by
  by_cases none : ∀ i < batch.numReqs, batch.numDraftTokens i = 0
  · have spec : batch.specDecodeMetadata = .none := if_pos none
    have laid := laid_withoutDrafts proper none
    refine ⟨.none, .none, laid, laid.samples, ?_⟩
    rw [paddedPass, paddedTokens_eq known, spec, takeTarget_whole]
    exact Option.map_eq_bind.symm
  · have spec : batch.specDecodeMetadata = some ⟨_, _⟩ := if_neg none
    refine ⟨some (counts batch.numReqs (lastPlace batch batch.queryLen)),
      some (counts batch.numReqs batch.numRejected), ⟨?_, rfl, rfl, rfl, rfl, Or.inr ⟨rfl, rfl⟩⟩, ?_, ?_⟩
    · intro i inside
      have := kept_spec proper inside
      omega
    · change zipWith _ (batch.common.queryStartLoc.tail.map _) _ = _
      rw [Batch.common, lastTokens proper.scheduled, counts, counts, zipWith_column]
      apply column_congr
      intro i inside
      have := kept_spec proper inside
      rw [lastPlace]
      omega
    · rw [paddedPass, paddedTokens_eq known, spec]
      change (prepareInputsPadded _ _ _).bind _ = _
      rw [prepareInputsPadded_eq proper]
      change (self.setInputsFirstPass (takeTarget batch.target _) _ _ _ _).bind _ = _
      rw [takeTarget_whole]
      exact Option.map_eq_bind.symm

/-- Without extra slots the two passes prepare the same inputs. -/
theorem passes_prepared (known : ∀ i < batch.numReqs, batch.backupToken i ≠ none)
    (narrow : self.needsExtraInputSlots = false)
    (fits : rowStart batch.queryLen batch.numReqs ≤ self.inputIds.length) :
    ∃ padded rejected unpadded,
      paddedPass self batch = some (padded, rejected) ∧ unpaddedPass self batch = some unpadded ∧
      Prepared batch batch.queryLen padded rejected ∧ Prepared batch batch.kept unpadded none := by
  have rotates (target : Target Hidden) next sample common rejected :
      self.setInputsFirstPass target next sample common rejected =
        self.rotateInputs target next sample common := by
    rw [Proposer.setInputsFirstPass, narrow]
    rfl
  obtain ⟨sample, rejected, laid, _, ran⟩ := paddedPass_eq self proper known
  obtain ⟨padded, rotated, prepared⟩ := laid.prepared self fits
  rw [rotates, rotated] at ran
  refine ⟨padded, rejected, ?_⟩
  by_cases none : ∀ i < batch.numReqs, batch.numDraftTokens i = 0
  · have spec : batch.specDecodeMetadata = .none := if_pos none
    obtain ⟨pass, rotated, same⟩ := (laid_withoutDrafts proper none).prepared self fits
    have starts (i : Nat) (inside : i < batch.numReqs) : rowStart batch.kept i = rowStart batch.queryLen i :=
      congrArg sum (column_congr fun k before =>
        (kept_withoutDrafts (none k (Nat.lt_trans before inside))).2)
    refine ⟨pass, ran, ?_, prepared, ?_, ?_, same.later⟩
    · rw [unpaddedPass, cpuTokens_known proper known, spec, takeTarget_whole]
      exact (rotates ..).trans rotated
    · intro i inside j kept
      rw [starts i inside]
      exact same.inputs i inside j kept
    · intro i inside
      rw [starts i inside]
      exact same.samples i inside
  · have spec : batch.specDecodeMetadata = some ⟨_, _⟩ := if_neg none
    have shorter : rowStart batch.kept batch.numReqs ≤ rowStart batch.queryLen batch.numReqs := by
      apply start_le
      intro i inside
      have := kept_spec proper inside
      omega
    have laidKept : Laid batch batch.kept (keptTarget batch) (keptCommon batch) .none .none :=
      ⟨fun _ inside => ⟨(kept_spec proper inside).1, le_rfl⟩, rfl, rfl, rfl,
        lastTokens fun _ inside => (kept_spec proper inside).1, Or.inl ⟨rfl, rfl⟩⟩
    obtain ⟨pass, rotatedKept, preparedKept⟩ := laidKept.prepared self (shorter.trans fits)
    refine ⟨pass, ran, ?_, prepared, preparedKept⟩
    rw [unpaddedPass, cpuTokens_known proper known, spec]
    change (prepareInputs batch.common batch.validSampledTokenIds _).bind _ = _
    rw [validSampledTokenIds_eq proper, prepareInputs_eq proper]
    change (selectTarget batch.target _).bind _ = _
    rw [selectTarget_kept proper]
    exact (rotates ..).trans rotatedKept

end Passes
end VllmDcu.PaddedDrafting

import VllmDcu.DraftInputs

/-! Greedy speculative decoding: a step keeps the drafts that the target model chooses itself, and one token
more. `none` is an error. -/
namespace VllmDcu.RejectionSampler
open RaggedArrays DraftInputs List

structure SpecDecodeMetadata where
  draftTokenIds : List Int
  numDraftTokens : List Nat
  cuNumDraftTokens : List Int
  targetLogitsIndices : List Int
  bonusLogitsIndices : List Int
  logitsIndices : List Int

def getCumsumAndArange (numTokens : List Nat) : Option (List Int × List Int) := do
  let cuNumTokens := cumsum (numTokens.map Nat.cast)
  let totalNumTokens ← cuNumTokens.getLast?
  let cumsumsOffsets := repeats (zipWith (· - ·) cuNumTokens (numTokens.map Nat.cast)) numTokens
  some (cuNumTokens, zipWith (· - ·) ((List.range totalNumTokens.toNat).map Nat.cast) cumsumsOffsets)

def calcSpecDecodeMetadata (inputIds : List Int) (numDraftTokens : List Nat)
    (cuNumScheduledTokens : List Int) : Option SpecDecodeMetadata := do
  let numSampledTokens := numDraftTokens.map (· + 1)
  let withoutSampled (cu : List Int) := zipWith (· - ·) cu (numSampledTokens.map Nat.cast)
  let (cuNumSampledTokens, arange) ← getCumsumAndArange numSampledTokens
  let logitsIndices :=
    zipWith (· + ·) (repeats (withoutSampled cuNumScheduledTokens) numSampledTokens) arange
  let bonusLogitsIndices := cuNumSampledTokens.map (· - 1)
  let (cuNumDraftTokens, arange) ← getCumsumAndArange numDraftTokens
  let targetLogitsIndices :=
    zipWith (· + ·) (repeats (withoutSampled cuNumSampledTokens) numDraftTokens) arange
  let draftTokenIds ← takeAt inputIds logitsIndices
  let draftTokenIds ← takeAt draftTokenIds (targetLogitsIndices.map (· + 1))
  some ⟨draftTokenIds, numDraftTokens, cuNumDraftTokens, targetLogitsIndices, bonusLogitsIndices,
    logitsIndices⟩

/-! The tensors of the metadata. -/

section Tensors
variable {rows : Nat} {count : Nat → Nat}

theorem getCumsumAndArange_eq (some_ : 0 < rows) :
    getCumsumAndArange (column rows count) =
      some (counts rows fun i => rowStart count (i + 1), ragged rows count fun _ j => (j : Int)) := by
  obtain ⟨last, rfl⟩ := Nat.exists_eq_succ_of_ne_zero some_.ne'
  have total : (counts (last + 1) fun i => rowStart count (i + 1)).getLast? =
      some (rowStart count (last + 1) : Int) := by
    rw [counts, column_succ, getLast?_concat]
  have casts : (column (last + 1) count).map Nat.cast = counts (last + 1) count := map_column ..
  rw [getCumsumAndArange, casts, cumsum_natCast, total]
  simp only [Option.bind_eq_bind, Option.bind_some, Int.toNat_natCast]
  rw [counts, counts, zipWith_column, repeats_column, range_ragged, map_ragged, zipWith_ragged]
  congr 2
  apply ragged_congr
  intro i _ j _
  rw [start_succ]
  push_cast
  omega

variable {Value : Type} (entry : Nat → Nat → Value)

theorem takeAt_ragged {count' : Nat → Nat} (place : Nat → Nat → Nat)
    (within : ∀ i < rows, ∀ j < count' i, place i j < count i) :
    takeAt (ragged rows count entry)
        (ragged rows count' fun i j => ((rowStart count i + place i j : Nat) : Int)) =
      some (ragged rows count' fun i j => entry i (place i j)) := by
  rw [← map_ragged rows count' (fun i j => rowStart count i + place i j) Nat.cast, takeAt_natCast]
  exact mapM_ragged _ _ _ _ _ fun i row j inside => ragged_get entry row (within i row j inside)

theorem takeAt_column (place : Nat → Nat) (within : ∀ i < rows, place i < count i) :
    takeAt (ragged rows count entry) (column rows fun i => ((rowStart count i + place i : Nat) : Int)) =
      some (column rows fun i => entry i (place i)) := by
  have casts : (column rows fun i => rowStart count i + place i).map Nat.cast =
      column rows fun i => ((rowStart count i + place i : Nat) : Int) := map_column _
  rw [← casts, takeAt_natCast]
  exact mapM_column _ _ _ _ fun i row => ragged_get entry row (within i row)

end Tensors

section Kernel
variable (metadata : SpecDecodeMetadata) (targetArgmax bonusTokenIds : List Int)

/-- The loop of `rejection_greedy_sample_kernel` with some draft tokens left. After a rejection the turns
that are left do nothing, and the bonus token is not stored. -/
def verifyRow (reqIdx startIdx numDraftTokens : Nat) : Nat → List Int → Option (List Int)
  | 0, row => bonusTokenIds[reqIdx]?.map (row.set numDraftTokens)
  | left + 1, row => do
    let pos := numDraftTokens - (left + 1)
    let draftTokenId ← metadata.draftTokenIds[startIdx + pos]?
    let targetArgmaxId ← targetArgmax[startIdx + pos]?
    let row := row.set pos targetArgmaxId
    if draftTokenId ≠ targetArgmaxId then some row else verifyRow reqIdx startIdx numDraftTokens left row

def rejectionGreedySample (maxSpecLen reqIdx : Nat) : Option (List Int) :=
  (if reqIdx = 0 then some 0 else metadata.cuNumDraftTokens[reqIdx - 1]?).bind fun startIdx =>
    metadata.cuNumDraftTokens[reqIdx]?.bind fun endIdx =>
      let numDraftTokens := (endIdx - startIdx).toNat
      verifyRow metadata targetArgmax bonusTokenIds reqIdx startIdx.toNat numDraftTokens numDraftTokens
        (List.replicate (maxSpecLen + 1) placeholderTokenId)

/-- All requests are greedy. -/
def rejectionSample : Option (List (List Int)) := do
  let maxSpecLen ← metadata.numDraftTokens.max?
  (List.range metadata.numDraftTokens.length).mapM
    (rejectionGreedySample metadata targetArgmax bonusTokenIds maxSpecLen)

end Kernel

def parseOutput (outputTokenIds : List (List Int)) (vocabSize : Int) : List (List Int) :=
  outputTokenIds.map (·.filter (isValid vocabSize))

/-- The requests of a step, in the order of the batch. -/
structure Batch where
  numReqs : Nat
  reqId : Nat → Nat
  drafts : Nat → List Int
  numComputedTokens : Nat → Nat
  nonempty : 0 < numReqs

variable (next : List Int → Int)

namespace Batch
variable (batch : Batch) (tokens : Nat → List Int)

def numDrafts (i : Nat) : Nat := (batch.drafts i).length

def allTokens (i : Nat) : List Int := tokens (batch.reqId i) ++ batch.drafts i

def numScheduled (i : Nat) : Nat := (batch.allTokens tokens i).length - batch.numComputedTokens i

def inputIds : List Int :=
  ragged batch.numReqs (batch.numScheduled tokens) fun i j =>
    (batch.allTokens tokens i)[batch.numComputedTokens i + j]?.getD 0

/-- What the target model chooses after each scheduled token. -/
def argmax : List Int :=
  ragged batch.numReqs (batch.numScheduled tokens) fun i j =>
    next ((batch.allTokens tokens i).take (batch.numComputedTokens i + j + 1))

/-- Each request has a token that is not computed. -/
def Decodes : Prop := ∀ i < batch.numReqs, batch.numComputedTokens i < (tokens (batch.reqId i)).length

instance : Decidable (batch.Decodes tokens) := by
  unfold Decodes
  infer_instance

end Batch

/-- One step: every request of the batch gets the tokens of its row. -/
def step (vocabSize : Int) (tokens : Nat → List Int) (batch : Batch) : Option (Nat → List Int) := do
  guard (batch.Decodes tokens)
  let metadata ← calcSpecDecodeMetadata (batch.inputIds tokens) (column batch.numReqs batch.numDrafts)
    (cumsum (counts batch.numReqs (batch.numScheduled tokens)))
  let logits ← takeAt (batch.argmax next tokens) metadata.logitsIndices
  let bonusTokenIds ← takeAt logits metadata.bonusLogitsIndices
  let targetArgmax ← takeAt logits metadata.targetLogitsIndices
  let outputTokenIds ← rejectionSample metadata targetArgmax bonusTokenIds
  let outputs := parseOutput outputTokenIds vocabSize
  some fun reqId => tokens reqId ++
    (((List.range batch.numReqs).find? fun i => batch.reqId i = reqId).bind (outputs[·]?)).getD []

/-! What the tensors of a step hold. -/

namespace Batch
variable (batch : Batch) (tokens : Nat → List Int)

def numSampled (i : Nat) : Nat := batch.numDrafts i + 1

def metadata : SpecDecodeMetadata where
  draftTokenIds := ragged batch.numReqs batch.numDrafts fun i j => (batch.drafts i)[j]?.getD 0
  numDraftTokens := column batch.numReqs batch.numDrafts
  cuNumDraftTokens := counts batch.numReqs fun i => rowStart batch.numDrafts (i + 1)
  targetLogitsIndices := ragged batch.numReqs batch.numDrafts fun i j =>
    ((rowStart batch.numSampled i + j : Nat) : Int)
  bonusLogitsIndices := column batch.numReqs fun i =>
    ((rowStart batch.numSampled i + batch.numDrafts i : Nat) : Int)
  logitsIndices := ragged batch.numReqs batch.numSampled fun i j =>
    ((rowStart (batch.numScheduled tokens) i +
      (batch.numScheduled tokens i - batch.numSampled i + j) : Nat) : Int)

/-- The choices of the target model at the sampled positions. -/
def sampledArgmax : List Int :=
  ragged batch.numReqs batch.numSampled fun i j => next (tokens (batch.reqId i) ++ (batch.drafts i).take j)

/-- Before each draft token. -/
def targetArgmax : List Int :=
  ragged batch.numReqs batch.numDrafts fun i j =>
    next (tokens (batch.reqId i) ++ (batch.drafts i).take j)

/-- And after all of them. -/
def bonusTokenIds : List Int :=
  column batch.numReqs fun i => next (tokens (batch.reqId i) ++ batch.drafts i)

variable {batch tokens} (decodes : batch.Decodes tokens)
include decodes

/-- The sampled positions are the last ones. -/
theorem sampled_places {i : Nat} (row : i < batch.numReqs) (j : Nat) :
    batch.numSampled i ≤ batch.numScheduled tokens i ∧
      batch.numComputedTokens i + (batch.numScheduled tokens i - batch.numSampled i + j) + 1 =
        (tokens (batch.reqId i)).length + j := by
  have behind := decodes i row
  rw [numScheduled, allTokens, length_append, numSampled, numDrafts]
  omega

theorem sampled_within (i : Nat) (row : i < batch.numReqs) (j : Nat) (inside : j < batch.numSampled i) :
    batch.numScheduled tokens i - batch.numSampled i + j < batch.numScheduled tokens i := by
  have fits := (sampled_places decodes row j).1
  omega

theorem calc_eq : calcSpecDecodeMetadata (batch.inputIds tokens) (column batch.numReqs batch.numDrafts)
    (cumsum (counts batch.numReqs (batch.numScheduled tokens))) = some (batch.metadata tokens) := by
  have sampled : (column batch.numReqs batch.numDrafts).map (· + 1) =
      column batch.numReqs batch.numSampled := map_column ..
  have casts : (column batch.numReqs batch.numSampled).map Nat.cast = counts batch.numReqs batch.numSampled :=
    map_column ..
  have logits : zipWith (· + ·) (repeats (zipWith (· - ·)
      (cumsum (counts batch.numReqs (batch.numScheduled tokens))) (counts batch.numReqs batch.numSampled))
        (column batch.numReqs batch.numSampled)) (ragged batch.numReqs batch.numSampled fun _ j => (j : Int)) =
      (batch.metadata tokens).logitsIndices := by
    rw [cumsum_natCast, counts, counts, zipWith_column, repeats_column, zipWith_ragged]
    apply ragged_congr
    intro i row j _
    have fits := (sampled_places decodes row j).1
    rw [start_succ]
    push_cast
    omega
  have target : zipWith (· + ·) (repeats (zipWith (· - ·)
      (counts batch.numReqs fun i => rowStart batch.numSampled (i + 1)) (counts batch.numReqs batch.numSampled))
        (column batch.numReqs batch.numDrafts)) (ragged batch.numReqs batch.numDrafts fun _ j => (j : Int)) =
      (batch.metadata tokens).targetLogitsIndices := by
    rw [counts, counts, zipWith_column, repeats_column, zipWith_ragged]
    apply ragged_congr
    intro i _ j _
    rw [start_succ]
    push_cast
    omega
  have bonus : (counts batch.numReqs fun i => rowStart batch.numSampled (i + 1)).map (· - 1) =
      (batch.metadata tokens).bonusLogitsIndices := by
    rw [counts, map_column]
    apply column_congr
    intro i _
    rw [start_succ, numSampled]
    push_cast
    omega
  have drafts : ((batch.metadata tokens).targetLogitsIndices).map (· + 1) =
      ragged batch.numReqs batch.numDrafts fun i j => ((rowStart batch.numSampled i + (j + 1) : Nat) : Int) :=
    map_ragged ..
  have draft_within : ∀ i < batch.numReqs, ∀ j < batch.numDrafts i, j + 1 < batch.numSampled i :=
    fun i _ j inside => Nat.succ_lt_succ inside
  unfold calcSpecDecodeMetadata
  simp only [sampled, casts, getCumsumAndArange_eq batch.nonempty, Option.bind_eq_bind, Option.bind_some, logits,
    target, bonus, drafts]
  rw [inputIds, metadata, takeAt_ragged _ _ (sampled_within decodes),
    Option.bind_some, takeAt_ragged _ (fun _ j => j + 1) draft_within, Option.bind_some]
  congr 2
  apply ragged_congr
  intro i row j _
  have place := (sampled_places decodes row (j + 1)).2
  rw [allTokens, getElem?_append_right (by omega)]
  congr 2
  omega

theorem logits_eq : takeAt (batch.argmax next tokens) (batch.metadata tokens).logitsIndices =
    some (batch.sampledArgmax next tokens) := by
  rw [argmax, metadata, takeAt_ragged _ _ (sampled_within decodes)]
  congr 1
  apply ragged_congr
  intro i row j _
  rw [(sampled_places decodes row j).2, allTokens, take_length_add_append]

omit decodes

theorem bonus_eq : takeAt (batch.sampledArgmax next tokens) (batch.metadata tokens).bonusLogitsIndices =
    some (batch.bonusTokenIds next tokens) := by
  have within : ∀ i < batch.numReqs, batch.numDrafts i < batch.numSampled i := fun i _ => Nat.lt_succ_self _
  rw [sampledArgmax, metadata, takeAt_column _ _ within, bonusTokenIds]
  congr 1
  apply column_congr
  intro i _
  rw [numDrafts, take_length]

theorem target_eq : takeAt (batch.sampledArgmax next tokens) (batch.metadata tokens).targetLogitsIndices =
    some (batch.targetArgmax next tokens) :=
  takeAt_ragged _ (fun _ j => j) fun _ _ _ inside => Nat.lt_succ_of_lt inside

end Batch

/-! What plain decoding gives. -/

/-- One token of plain decoding. -/
def decode (tokens : List Int) : List Int := tokens ++ [next tokens]

/-- The drafts that plain decoding gives too, and its next token. -/
def verified (tokens : List Int) : List Int → List Int
  | [] => [next tokens]
  | draft :: drafts =>
    if draft = next tokens then draft :: verified (tokens ++ [draft]) drafts else [next tokens]

theorem verified_decodes (tokens drafts : List Int) :
    ∃ count, tokens ++ verified next tokens drafts = (decode next)^[count + 1] tokens := by
  induction drafts generalizing tokens with
  | nil => exact ⟨0, rfl⟩
  | cons draft drafts ih =>
    rw [verified]
    split
    · rename_i chosen
      obtain ⟨count, same⟩ := ih (tokens ++ [draft])
      refine ⟨count + 1, ?_⟩
      rw [Function.iterate_succ_apply, decode, ← chosen, ← same, append_assoc]
      rfl
    · exact ⟨0, rfl⟩

theorem verified_mem {tokens drafts : List Int} :
    ∀ token ∈ verified next tokens drafts, ∃ before, token = next before := by
  induction drafts generalizing tokens with
  | nil => exact fun token member => ⟨tokens, mem_singleton.mp member⟩
  | cons draft drafts ih =>
    intro token member
    rw [verified] at member
    split at member
    · rename_i chosen
      rcases mem_cons.mp member with rfl | later
      · exact ⟨tokens, chosen⟩
      · exact ih token later
    · exact ⟨tokens, mem_singleton.mp member⟩

/-! The rows. -/

theorem store_row (drafts : List Int) {size pos : Nat} (room : pos < size) (fits : pos ≤ drafts.length)
    (value : Int) :
    (drafts.take pos ++ List.replicate (size - pos) placeholderTokenId).set pos value =
      drafts.take pos ++ value :: List.replicate (size - (pos + 1)) placeholderTokenId := by
  have front : (drafts.take pos).length = pos := length_take_of_le fits
  obtain ⟨more, rfl⟩ := Nat.exists_eq_add_of_lt room
  rw [set_append_right _ _ front.le, front, Nat.sub_self, Nat.add_assoc, Nat.add_sub_cancel_left,
    replicate_succ, set_cons_zero, Nat.add_sub_add_left, Nat.add_sub_cancel]

variable (batch : Batch) (tokens : Nat → List Int) {i : Nat} (inside : i < batch.numReqs)
include inside

/-- Where some drafts are left and the others were accepted. -/
theorem verifyRow_from {size pos : Nat} (room : batch.numDrafts i < size) (left : Nat)
    (parts : pos + left = batch.numDrafts i) :
    verifyRow (batch.metadata tokens) (batch.targetArgmax next tokens) (batch.bonusTokenIds next tokens) i
        (rowStart batch.numDrafts i) (batch.numDrafts i) left
        ((batch.drafts i).take pos ++ List.replicate (size - pos) placeholderTokenId) =
      some ((batch.drafts i).take pos ++
        verified next (tokens (batch.reqId i) ++ (batch.drafts i).take pos) ((batch.drafts i).drop pos) ++
        List.replicate (size - pos - (verified next (tokens (batch.reqId i) ++ (batch.drafts i).take pos)
          ((batch.drafts i).drop pos)).length) placeholderTokenId) := by
  induction left generalizing pos with
  | zero =>
    obtain rfl : pos = (batch.drafts i).length := parts
    change (batch.drafts i).length < size at room
    rw [verifyRow, Batch.bonusTokenIds, column_get inside, Option.map_some, Batch.numDrafts,
      store_row _ room le_rfl, drop_length, take_length, verified, append_assoc]
    rfl
  | succ left ih =>
    have here : pos < (batch.drafts i).length := by
      change pos + (left + 1) = (batch.drafts i).length at parts
      omega
    have draft : (batch.metadata tokens).draftTokenIds[rowStart batch.numDrafts i + pos]? =
        some ((batch.drafts i)[pos]?.getD 0) := ragged_get _ inside here
    have target : (batch.targetArgmax next tokens)[rowStart batch.numDrafts i + pos]? =
        some (next (tokens (batch.reqId i) ++ (batch.drafts i).take pos)) := ragged_get _ inside here
    rw [verifyRow, ← parts, Nat.add_sub_cancel, draft, target, getElem?_eq_getElem here,
      drop_eq_getElem_cons here, verified]
    simp only [Option.getD_some, Option.bind_eq_bind, Option.bind_some]
    rw [store_row _ (by omega) here.le]
    have rest (count : Nat) : size - pos - (count + 1) = size - (pos + 1) - count := by omega
    by_cases chosen : (batch.drafts i)[pos] = next (tokens (batch.reqId i) ++ (batch.drafts i).take pos)
    · rw [if_neg (not_not_intro chosen), if_pos chosen, ← chosen, length_cons, rest, append_cons _ _ (verified ..),
        append_cons, append_assoc (tokens _), take_append_getElem, parts]
      exact ih (by omega)
    · rw [if_pos chosen, if_neg chosen, length_singleton, rest, append_assoc]
      rfl

theorem rejectionGreedySample_eq {size : Nat} (room : batch.numDrafts i ≤ size) :
    rejectionGreedySample (batch.metadata tokens) (batch.targetArgmax next tokens) (batch.bonusTokenIds next tokens)
        size i =
      some (verified next (tokens (batch.reqId i)) (batch.drafts i) ++ List.replicate (size + 1 -
        (verified next (tokens (batch.reqId i)) (batch.drafts i)).length) placeholderTokenId) := by
  have row := verifyRow_from next batch tokens inside (Nat.lt_succ_of_le room) _ (Nat.zero_add _)
  rw [take_zero, nil_append, append_nil, drop_zero, nil_append] at row
  have start : (if i = 0 then some 0 else (batch.metadata tokens).cuNumDraftTokens[i - 1]?) =
      some (rowStart batch.numDrafts i : Int) := by
    split
    · rename_i first
      rw [first]
      rfl
    · rw [Batch.metadata, counts, column_get (by omega), Nat.sub_add_cancel (by omega)]
  have stop : (batch.metadata tokens).cuNumDraftTokens[i]? = some (rowStart batch.numDrafts (i + 1) : Int) := by
    rw [Batch.metadata, counts, column_get inside]
  rw [rejectionGreedySample, start, stop, start_succ, Option.bind_some, Option.bind_some, Nat.cast_add,
    add_sub_cancel_left]
  exact row

omit inside

section
variable (vocabSize : Int) (chooses : ∀ tokens, 0 ≤ next tokens ∧ next tokens < vocabSize)
include chooses

/-- Every request gets the tokens that plain decoding agrees with. -/
theorem step_eq (decodes : batch.Decodes tokens) :
    step next vocabSize tokens batch = some fun reqId => tokens reqId ++
      (((List.range batch.numReqs).find? fun i => batch.reqId i = reqId).map fun i =>
        verified next (tokens reqId) (batch.drafts i)).getD [] := by
  obtain ⟨longest, most⟩ : ∃ longest, (batch.metadata tokens).numDraftTokens.max? = some longest :=
    Option.ne_none_iff_exists'.mp fun none => by
      have empty := congrArg List.length (max?_eq_none_iff.mp none)
      rw [Batch.metadata, column_length] at empty
      exact batch.nonempty.ne' empty
  have rows : rejectionSample (batch.metadata tokens) (batch.targetArgmax next tokens)
      (batch.bonusTokenIds next tokens) = some ((List.range batch.numReqs).map fun i =>
        verified next (tokens (batch.reqId i)) (batch.drafts i) ++ List.replicate (longest + 1 -
          (verified next (tokens (batch.reqId i)) (batch.drafts i)).length) placeholderTokenId) := by
    rw [rejectionSample, most, Batch.metadata, column_length]
    apply mapM_some
    intro i listed
    have inside := mem_range.mp listed
    exact rejectionGreedySample_eq next batch tokens inside
      ((max?_eq_some_iff.mp most).2 _ (mem_map.mpr ⟨i, listed, rfl⟩))
  have parsed (before drafts : List Int) (rest : Nat) :
      (verified next before drafts ++ List.replicate rest placeholderTokenId).filter (isValid vocabSize) =
        verified next before drafts := by
    have chosen : ∀ token ∈ verified next before drafts, isValid vocabSize token = true := by
      intro token member
      obtain ⟨seen, rfl⟩ := verified_mem next token member
      have bounds := chooses seen
      exact decide_eq_true ⟨fun same => by rw [same] at bounds; exact absurd bounds.1 (by decide), bounds.2⟩
    rw [filter_append, filter_eq_self.mpr chosen, filter_replicate_of_neg (by simp [isValid]), append_nil]
  unfold step parseOutput
  simp only [guard, if_pos decodes, Batch.calc_eq decodes, Batch.logits_eq next decodes, Batch.bonus_eq,
    Batch.target_eq, rows, Option.bind_eq_bind, Option.bind_some, Option.pure_def, map_map]
  congr 2
  funext reqId
  cases found : (List.range batch.numReqs).find? fun i => batch.reqId i = reqId with
  | none => rfl
  | some i =>
    have listed := mem_range.mp (mem_of_find?_eq_some found)
    have same : batch.reqId i = reqId := by simpa using find?_some found
    rw [Option.bind_some, getElem?_map, getElem?_range listed, ← same]
    exact congrArg (tokens (batch.reqId i) ++ ·) (parsed _ _ _)

theorem step_decodes {after : Nat → List Int} (stepped : step next vocabSize tokens batch = some after)
    (reqId : Nat) : ∃ count, (if ∃ i < batch.numReqs, batch.reqId i = reqId then 1 else 0) ≤ count ∧
      after reqId = (decode next)^[count] (tokens reqId) := by
  by_cases decodes : batch.Decodes tokens
  · rw [step_eq next batch tokens vocabSize chooses decodes] at stepped
    cases stepped
    simp only
    cases found : (List.range batch.numReqs).find? fun i => batch.reqId i = reqId with
    | none =>
      refine ⟨0, ?_, append_nil _⟩
      rw [if_neg]
      rintro ⟨i, inside, same⟩
      exact find?_eq_none.mp found i (mem_range.mpr inside) (decide_eq_true same)
    | some i =>
      obtain ⟨count, same⟩ := verified_decodes next (tokens reqId) (batch.drafts i)
      refine ⟨count + 1, ?_, same⟩
      split <;> omega
  · rw [step, guard, if_neg decodes] at stepped
    cases stepped

end

/-- Three drafts, of which two are right, and a request without drafts. -/
def sampleBatch : Batch where
  numReqs := 2
  reqId i := i
  drafts := fun | 0 => [4, 5, 9] | _ => []
  numComputedTokens := fun | 0 => 2 | _ => 0
  nonempty := Nat.two_pos

def sampleTokens : Nat → List Int
  | 0 => [1, 2, 3]
  | _ => [7]

def nextNumber (tokens : List Int) : Int := (tokens.length + 1) % 100

end VllmDcu.RejectionSampler

import VllmDcu.NgramProposer
import VllmDcu.TensorRows

/-! N-gram drafting for a batch on the CPU: the requests that are asked for drafts, and the buffers
that every call writes anew. Token ids are integers, as the padding of sampled tokens is -1. -/
namespace VllmDcu.NgramBatches
open NgramProposer List Option

/-- What the configuration gives a proposer, as it checks it. -/
structure Proposer where
  minN : Nat
  maxN : Nat
  k : Nat
  maxModelLen : Nat
  minN_pos : 1 ≤ minN
  minN_le : minN ≤ maxN

/-- `valid_ngram_draft` and `valid_ngram_num_drafts`. -/
structure Buffers (maxNumSeqs k : Nat) where
  validNgramDraft : List (List Int)
  validNgramNumDrafts : List Nat
  draft_rows : validNgramDraft.length = maxNumSeqs
  numDrafts_rows : validNgramNumDrafts.length = maxNumSeqs
  width : ∀ row ∈ validNgramDraft, row.length = k

namespace Buffers
variable {maxNumSeqs k : Nat}

/-- The writes of one request; none out of range. -/
def store (buffers : Buffers maxNumSeqs k) (idx : Nat) (output : List Int) :
    Option (Buffers maxNumSeqs k) :=
  match found : buffers.validNgramDraft[idx]? with
  | none => none
  | some row =>
    if fits : output.length ≤ k then
      some {
        validNgramDraft := buffers.validNgramDraft.set idx (output ++ row.drop output.length)
        validNgramNumDrafts := buffers.validNgramNumDrafts.set idx output.length
        draft_rows := by rw [List.length_set, buffers.draft_rows]
        numDrafts_rows := by rw [List.length_set, buffers.numDrafts_rows]
        width := by
          intro other member
          rcases List.mem_or_eq_of_mem_set member with kept | rfl
          · exact buffers.width other kept
          · have := buffers.width row (List.mem_of_getElem? found)
            rw [List.length_append, List.length_drop]
            omega }
    else none

/-- `valid_ngram_draft[i, :valid_ngram_num_drafts[i]]`, if the count is positive. -/
def drafts (buffers : Buffers maxNumSeqs k) (i : Nat) : Option (List Int) :=
  buffers.validNgramNumDrafts[i]?.bind fun numDrafts =>
    if numDrafts > 0 then buffers.validNgramDraft[i]?.map (List.take numDrafts) else some []

end Buffers

namespace Proposer

/-- The drafts of one request, from the tokens it has. -/
def draft (proposer : Proposer) (fuel numTokens : Nat) (row : List Int) : Option (List Int) :=
  findLongestMatchedNgramAndProposeTokens fuel (row.take numTokens) proposer.minN proposer.maxN
    proposer.maxModelLen proposer.k

/-- The loop over the requests; its turns write to different rows. -/
def batchProposeNumba {maxNumSeqs : Nat} (proposer : Proposer) (fuel : Nat)
    (numTokensNoSpec : List Nat) (tokenIdsCpu : List (List Int)) :
    List Nat → Buffers maxNumSeqs proposer.k → Option (Buffers maxNumSeqs proposer.k)
  | [], buffers => some buffers
  | idx :: rest, buffers =>
    numTokensNoSpec[idx]?.bind fun numTokens =>
      tokenIdsCpu[idx]?.bind fun row =>
        (proposer.draft fuel numTokens row).bind fun output =>
          (buffers.store idx output).bind
            (proposer.batchProposeNumba fuel numTokensNoSpec tokenIdsCpu rest)

def batchPropose {maxNumSeqs : Nat} (proposer : Proposer) (fuel : Nat)
    (buffers : Buffers maxNumSeqs proposer.k) (numRequests : Nat) (validNgramRequests : List Nat)
    (numTokensNoSpec : List Nat) (tokenIdsCpu : List (List Int)) :
    Option (List (List Int) × Buffers maxNumSeqs proposer.k) :=
  (proposer.batchProposeNumba fuel numTokensNoSpec tokenIdsCpu validNgramRequests buffers).bind
    fun buffers =>
      ((List.range numRequests).mapM fun i =>
        if i ∈ validNgramRequests then buffers.drafts i else some []).map fun draftTokenIds =>
          (draftTokenIds, buffers)

/-- A request without sampled tokens, or at the end of the model's length, is skipped. -/
def asks (proposer : Proposer) (sampledIds : List Int) (numTokens : Nat) : Prop :=
  sampledIds ≠ [] ∧ numTokens < proposer.maxModelLen

instance (proposer : Proposer) (sampledIds : List Int) (numTokens : Nat) :
    Decidable (proposer.asks sampledIds numTokens) := by
  unfold asks
  infer_instance

def validNgramRequests (proposer : Proposer) (sampledTokenIds : List (List Int))
    (numTokensNoSpec : List Nat) : List Nat :=
  (List.range sampledTokenIds.length).filter fun i =>
    match sampledTokenIds[i]?, numTokensNoSpec[i]? with
    | some sampledIds, some numTokens => decide (proposer.asks sampledIds numTokens)
    | _, _ => false

def propose {maxNumSeqs : Nat} (proposer : Proposer) (fuel : Nat)
    (buffers : Buffers maxNumSeqs proposer.k) (sampledTokenIds : List (List Int))
    (numTokensNoSpec : List Nat) (tokenIdsCpu : List (List Int)) :
    Option (List (List Int) × Buffers maxNumSeqs proposer.k) :=
  proposer.batchPropose fuel buffers sampledTokenIds.length
    (proposer.validNgramRequests sampledTokenIds numTokensNoSpec) numTokensNoSpec tokenIdsCpu

end Proposer

/-! The buffers. -/

namespace Buffers
variable {maxNumSeqs k : Nat}

theorem store_spec (buffers : Buffers maxNumSeqs k) (idx : Nat) (output : List Int)
    (inside : idx < maxNumSeqs) (fits : output.length ≤ k) :
    ∃ after, buffers.store idx output = some after ∧ after.drafts idx = some output ∧
      ∀ i, i ≠ idx → after.drafts i = buffers.drafts i := by
  have bound : idx < buffers.validNgramDraft.length := by rw [buffers.draft_rows]; exact inside
  have counted : idx < buffers.validNgramNumDrafts.length := by rw [buffers.numDrafts_rows]; exact inside
  unfold store
  split
  case h_1 missing =>
    rw [getElem?_eq_getElem bound] at missing
    contradiction
  case h_2 row found =>
    rw [dif_pos fits]
    refine ⟨_, rfl, ?_, ?_⟩
    · unfold drafts
      simp only [getElem?_set_self counted, getElem?_set_self bound, bind_some, map_some]
      by_cases empty : output.length > 0
      · rw [if_pos empty, take_left]
      · have none : output = [] := length_eq_zero_iff.mp (by omega)
        rw [if_neg empty, none]
    · intro i other
      unfold drafts
      simp only [getElem?_set_ne (Ne.symm other)]

end Buffers

namespace Proposer

/-- No more drafts than tokens allowed, and as many turns as the tokens need. -/
theorem draft_total (proposer : Proposer) (numTokens : Nat) (row : List Int) :
    ∃ output, (∀ fuel, 2 * numTokens ≤ fuel → proposer.draft fuel numTokens row = some output) ∧
      output.length ≤ proposer.k ∧
      FollowsChosen (row.take numTokens) proposer.minN proposer.maxN
        (min proposer.k (proposer.maxModelLen - (row.take numTokens).length : Int)) output := by
  obtain ⟨output, runs, follows⟩ := propose_followsChosen (row.take numTokens) proposer.minN
    proposer.maxN proposer.maxModelLen proposer.k proposer.minN_pos proposer.minN_le
  refine ⟨output, ?_, ?_, follows⟩
  · intro fuel enough
    apply runs
    rw [length_take]
    omega
  · rcases follows with ⟨_, n, start, _, rfl⟩ | ⟨_, rfl⟩
    · rw [length_take]
      omega
    · exact Nat.zero_le _

/-- Each request of the loop gets its drafts; the rows of the others stay. -/
theorem batchProposeNumba_spec {maxNumSeqs : Nat} (proposer : Proposer) (fuel : Nat)
    (numTokensNoSpec : List Nat) (tokenIdsCpu : List (List Int)) (outputs : Nat → List Int)
    (requests : List Nat) (buffers : Buffers maxNumSeqs proposer.k) (distinct : requests.Nodup)
    (inside : ∀ idx ∈ requests, idx < maxNumSeqs ∧ (outputs idx).length ≤ proposer.k ∧
      ∃ numTokens row, numTokensNoSpec[idx]? = some numTokens ∧ tokenIdsCpu[idx]? = some row ∧
        proposer.draft fuel numTokens row = some (outputs idx)) :
    ∃ after, proposer.batchProposeNumba fuel numTokensNoSpec tokenIdsCpu requests buffers = some after ∧
      (∀ idx ∈ requests, after.drafts idx = some (outputs idx)) ∧
      ∀ i, i ∉ requests → after.drafts i = buffers.drafts i := by
  induction requests generalizing buffers with
  | nil => exact ⟨buffers, rfl, nofun, fun _ _ => rfl⟩
  | cons idx rest ih =>
    obtain ⟨bound, fits, numTokens, row, counted, read, drafted⟩ := inside idx mem_cons_self
    obtain ⟨stored, store, own, others⟩ := buffers.store_spec idx (outputs idx) bound fits
    have fresh := (nodup_cons.mp distinct).1
    obtain ⟨after, ran, done, kept⟩ := ih stored (nodup_cons.mp distinct).2
      fun other member => inside other (mem_cons_of_mem idx member)
    refine ⟨after, ?_, ?_, ?_⟩
    · rw [batchProposeNumba, counted, bind_some, read, bind_some, drafted,
        bind_some, store, bind_some, ran]
    · intro other member
      cases member with
      | head => rw [kept idx fresh, own]
      | tail _ member => exact done other member
    · intro other outside
      rw [kept other fun member => outside (mem_cons_of_mem idx member),
        others other fun same => outside (same ▸ mem_cons_self)]

theorem mem_validNgramRequests (proposer : Proposer) (sampledTokenIds : List (List Int))
    (numTokensNoSpec : List Nat) (i : Nat) :
    i ∈ proposer.validNgramRequests sampledTokenIds numTokensNoSpec ↔
      ∃ sampledIds numTokens, sampledTokenIds[i]? = some sampledIds ∧
        numTokensNoSpec[i]? = some numTokens ∧ proposer.asks sampledIds numTokens := by
  unfold validNgramRequests
  rw [mem_filter, mem_range]
  constructor
  · intro ⟨_, holds⟩
    split at holds
    case h_1 sampledIds numTokens found counted =>
      exact ⟨sampledIds, numTokens, found, counted, of_decide_eq_true holds⟩
    case h_2 => contradiction
  · intro ⟨sampledIds, numTokens, found, counted, asks⟩
    constructor
    · exact (List.getElem?_eq_some_iff.mp found).1
    · rw [found, counted]
      exact decide_eq_true asks

/-- The call returns; a request that asks gets what follows its chosen n-gram, another one nothing. -/
theorem propose_spec {maxNumSeqs : Nat} (proposer : Proposer) (sampledTokenIds : List (List Int))
    (numTokensNoSpec : List Nat) (tokenIdsCpu : List (List Int))
    (buffers : Buffers maxNumSeqs proposer.k) (room : sampledTokenIds.length ≤ maxNumSeqs)
    (counts : numTokensNoSpec.length = sampledTokenIds.length)
    (rows : tokenIdsCpu.length = sampledTokenIds.length) :
    ∃ draftTokenIds, (∀ fuel, (∀ numTokens ∈ numTokensNoSpec, 2 * numTokens ≤ fuel) →
        ∃ after, proposer.propose fuel buffers sampledTokenIds numTokensNoSpec tokenIdsCpu =
          some (draftTokenIds, after)) ∧
      draftTokenIds.length = sampledTokenIds.length ∧
      ∀ (i : Nat) sampledIds numTokens row, sampledTokenIds[i]? = some sampledIds →
        numTokensNoSpec[i]? = some numTokens → tokenIdsCpu[i]? = some row →
        ∃ drafts, draftTokenIds[i]? = some drafts ∧
          (proposer.asks sampledIds numTokens →
            FollowsChosen (row.take numTokens) proposer.minN proposer.maxN
              (min proposer.k (proposer.maxModelLen - (row.take numTokens).length : Int)) drafts) ∧
          (¬ proposer.asks sampledIds numTokens → drafts = []) := by
  choose outputs drafted fits follows using fun (i : Nat) =>
    proposer.draft_total (numTokensNoSpec[i]?.getD 0) (tokenIdsCpu[i]?.getD [])
  let requests := proposer.validNgramRequests sampledTokenIds numTokensNoSpec
  let drafts (i : Nat) := if i ∈ requests then outputs i else []
  refine ⟨(range sampledTokenIds.length).map drafts, ?_, ?_, ?_⟩
  · intro fuel enough
    -- every request of the loop is in range of the batch
    have inside : ∀ idx ∈ requests, idx < maxNumSeqs ∧ (outputs idx).length ≤ proposer.k ∧
        ∃ numTokens row, numTokensNoSpec[idx]? = some numTokens ∧ tokenIdsCpu[idx]? = some row ∧
          proposer.draft fuel numTokens row = some (outputs idx) := by
      intro idx member
      obtain ⟨_, numTokens, found, counted, _⟩ :=
        (proposer.mem_validNgramRequests sampledTokenIds numTokensNoSpec idx).mp member
      obtain ⟨bound, _⟩ := List.getElem?_eq_some_iff.mp found
      have read := getElem?_eq_getElem (l := tokenIdsCpu) (i := idx) (by omega)
      refine ⟨by omega, fits idx, numTokens, _, counted, read, ?_⟩
      have own := drafted idx fuel
      rw [counted, read] at own
      exact own (enough numTokens (mem_of_getElem? counted))
    obtain ⟨after, ran, done, _⟩ := proposer.batchProposeNumba_spec fuel numTokensNoSpec tokenIdsCpu
      outputs requests buffers (nodup_range.filter _) inside
    refine ⟨after, ?_⟩
    unfold propose batchPropose
    rw [ran, bind_some]
    obtain ⟨results, mapped, length, read⟩ := TensorRows.mapM_total (range sampledTokenIds.length)
      (fun i => if i ∈ requests then after.drafts i else some []) (by
        intro i _
        by_cases member : i ∈ requests
        · exact ⟨outputs i, by rw [if_pos member, done i member]⟩
        · exact ⟨[], if_neg member⟩)
    rw [mapped, map_some]
    congr 2
    apply ext_getElem?
    intro i
    by_cases bound : i < sampledTokenIds.length
    · have position := getElem?_range bound
      rw [read i i position, getElem?_map, position]
      by_cases member : i ∈ requests
      · rw [if_pos member, done i member]
        exact congrArg some (if_pos member).symm
      · rw [if_neg member]
        exact congrArg some (if_neg member).symm
    · rw [getElem?_eq_none (by rw [length, length_range]; omega),
        getElem?_eq_none (by rw [length_map, length_range]; omega)]
  · rw [length_map, length_range]
  · intro i sampledIds numTokens row found counted read
    obtain ⟨bound, _⟩ := List.getElem?_eq_some_iff.mp found
    refine ⟨drafts i, ?_, ?_, ?_⟩
    · rw [getElem?_map, getElem?_range bound, map_some]
    · intro asks
      have member : i ∈ requests := (proposer.mem_validNgramRequests _ _ i).mpr
        ⟨sampledIds, numTokens, found, counted, asks⟩
      have own := follows i
      rw [counted, read] at own
      simp only [drafts, if_pos member]
      exact own
    · intro silent
      apply if_neg
      intro member
      obtain ⟨_, _, again, countedAgain, asks⟩ := (proposer.mem_validNgramRequests _ _ i).mp member
      rw [found] at again
      rw [counted] at countedAgain
      cases again
      cases countedAgain
      exact silent asks

end Proposer

end VllmDcu.NgramBatches

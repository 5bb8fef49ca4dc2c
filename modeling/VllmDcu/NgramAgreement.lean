import VllmDcu.NgramKernel

/-! The two n-gram proposers on the same batch. The one made of tensor operations does not cap its
drafts by the room that the model's length leaves. -/
namespace VllmDcu.NgramAgreement
open TensorRows NgramBatches NgramKernel
open NgramProposer (Chosen FollowsChosen Recurs)
open List Option

/-- One request of a batch: its row of stored tokens and what was sampled for it, padded with -1. -/
structure Request where
  tokenIds : List Int
  numTokensNoSpec : Nat
  sampled : List Int
  padding : Nat

namespace Request

/-- The tokens a request has once the sampled ones are appended. -/
def tokens (request : Request) : List Int :=
  request.tokenIds.take request.numTokensNoSpec ++ request.sampled

/-- The row as the GPU proposer is given it. -/
def row (request : Request) : Row where
  numTokensNoSpec := request.numTokensNoSpec
  tokenIds := request.tokenIds
  validSampledTokenIds := request.sampled ++ List.replicate request.padding (-1)
  validSampledTokensCount := request.sampled.length

/-- The row the CPU proposer reads: the sampled tokens are written before it is called. -/
def tokenIdsCpu (request : Request) : List Int :=
  request.tokens ++ request.tokenIds.drop request.tokens.length

/-- Token ids in a row of the model's length; sampled tokens leave the request unfinished. -/
structure WellFormed (maxModelLen : Nat) (request : Request) : Prop where
  width : request.tokenIds.length = maxModelLen
  stored : request.numTokensNoSpec ≤ maxModelLen
  unfinished : request.sampled = [] ∨
    request.numTokensNoSpec + request.sampled.length < maxModelLen
  valid : ∀ token ∈ request.tokens, 0 ≤ token

/-- No more tokens follow the chosen n-gram, up to `k`, than the model's length has room for. -/
def FitsModel (proposer : Proposer) (request : Request) : Prop :=
  request.sampled = [] ∨ ∀ n start,
    Chosen request.tokens proposer.minN proposer.maxN n start →
      min proposer.k (request.tokens.length - (start + n)) ≤ proposer.maxModelLen - request.tokens.length

end Request

/-- The same drafts, none past the model's length, and the sampled tokens are in place. -/
structure Agrees (maxModelLen : Nat) (request : Request) (result : Result) (drafts : List Int) :
    Prop where
  same : result.draftTokens.take result.numValidDraftTokens = drafts
  inModel : request.tokens.length + result.numValidDraftTokens ≤ maxModelLen
  inPlace : result.tokenIds.take request.tokens.length = request.tokens

/-! The scatter. -/

theorem Request.WellFormed.length {maxModelLen : Nat} {request : Request}
    (wellFormed : request.WellFormed maxModelLen) :
    request.tokens.length = request.numTokensNoSpec + request.sampled.length ∧
      request.tokens.length ≤ maxModelLen := by
  have width := wellFormed.width
  have stored := wellFormed.stored
  have length : request.tokens.length = request.numTokensNoSpec + request.sampled.length := by
    unfold Request.tokens
    rw [length_append, length_take]
    omega
  refine ⟨length, ?_⟩
  rcases wellFormed.unfinished with none | room
  · rw [length, none]
    omega
  · omega

/-- Each write: its offset decides the position, and whether the sampled or the old value is written. -/
theorem tokensToScatter_spec (row : Row) (nonempty : 0 < row.tokenIds.length) :
    ∃ writes, tokensToScatter row = some writes ∧ ∀ write, write ∈ writes ↔
      ∃ offset token existing, row.validSampledTokenIds[offset]? = some token ∧
        row.tokenIds[min (row.numTokensNoSpec + offset) (row.tokenIds.length - 1)]? = some existing ∧
        write = (min (row.numTokensNoSpec + offset) (row.tokenIds.length - 1),
          if offset < row.validSampledTokensCount ∧ token ≠ -1 ∧
            row.numTokensNoSpec + offset < row.tokenIds.length then token else existing) := by
  obtain ⟨writes, mapped, length, read⟩ := mapM_total row.validSampledTokenIds.zipIdx
    (fun (entry : Int × Nat) =>
      row.tokenIds[min (row.numTokensNoSpec + entry.2) (row.tokenIds.length - 1)]?.map fun existing =>
        (min (row.numTokensNoSpec + entry.2) (row.tokenIds.length - 1),
          if entry.2 < row.validSampledTokensCount ∧ entry.1 ≠ -1 ∧
            row.numTokensNoSpec + entry.2 < row.tokenIds.length then entry.1 else existing)) (by
    rintro ⟨token, offset⟩ _
    simp only
    rw [getElem?_eq_getElem (by omega)]
    exact ⟨_, rfl⟩)
  rw [length_zipIdx] at length
  refine ⟨writes, mapped, fun write => ?_⟩
  have item (offset : Nat) (token : Int) (found : row.validSampledTokenIds[offset]? = some token) :
      row.validSampledTokenIds.zipIdx[offset]? = some (token, offset) := by
    rw [getElem?_zipIdx, found, map_some, Nat.zero_add]
  rw [mem_iff_getElem?]
  constructor
  · rintro ⟨offset, written⟩
    obtain ⟨bound, _⟩ := List.getElem?_eq_some_iff.mp written
    have found := getElem?_eq_getElem (length ▸ bound)
    have made := read offset _ (item offset _ found)
    rw [written] at made
    obtain ⟨existing, there, same⟩ := map_eq_some_iff.mp made.symm
    exact ⟨offset, _, existing, found, there, same.symm⟩
  · rintro ⟨offset, token, existing, found, there, same⟩
    refine ⟨offset, ?_⟩
    rw [read offset _ (item offset token found)]
    exact map_eq_some_iff.mpr ⟨existing, there, same.symm⟩

section Scatter
variable {maxModelLen : Nat} {request : Request} {writes : List (Nat × Int)} {after : List Int}
  (wellFormed : request.WellFormed maxModelLen) (positive : 0 < maxModelLen)
  (made : tokensToScatter request.row = some writes)
  (scattered : Scattered request.tokenIds writes after)
include wellFormed positive made

theorem mem_writes {write : Nat × Int} : write ∈ writes ↔ ∃ offset token existing,
    (request.sampled ++ List.replicate request.padding (-1))[offset]? = some token ∧
      request.tokenIds[min (request.numTokensNoSpec + offset) (maxModelLen - 1)]? = some existing ∧
      write = (min (request.numTokensNoSpec + offset) (maxModelLen - 1),
        if offset < request.sampled.length ∧ token ≠ -1 ∧
          request.numTokensNoSpec + offset < maxModelLen then token else existing) := by
  have width := wellFormed.width
  obtain ⟨writes', made', spec⟩ := tokensToScatter_spec request.row (by
    change 0 < request.tokenIds.length
    omega)
  rw [made] at made'
  cases made'
  simp only [Request.row, width] at spec
  exact spec write

include scattered

/-- Only the old value is ever written to a stored position. -/
theorem scatter_stored (i : Nat) (old : i < request.numTokensNoSpec) :
    after[i]? = request.tokenIds[i]? := by
  have width := wellFormed.width
  have stored := wellFormed.stored
  have read := getElem?_eq_getElem (l := request.tokenIds) (i := i) (by omega)
  rw [read]
  apply scattered.kept i _ read
  intro write member place
  obtain ⟨offset, token, existing, _, there, rfl⟩ := (mem_writes wellFormed positive made).mp member
  simp only at place ⊢
  rw [place, read] at there
  have masked : ¬ (offset < request.sampled.length ∧ token ≠ -1 ∧
      request.numTokensNoSpec + offset < maxModelLen) := by omega
  rw [if_neg masked]
  exact (some.inj there).symm

/-- In front of the last position, one offset writes to a position. -/
theorem scatter_sampled (offset : Nat) (new : offset < request.sampled.length) :
    after[request.numTokensNoSpec + offset]? = request.sampled[offset]? := by
  have width := wellFormed.width
  have room : request.numTokensNoSpec + request.sampled.length < maxModelLen := by
    rcases wellFormed.unfinished with none | room
    · rw [none] at new
      contradiction
    · exact room
  have found := getElem?_eq_getElem new
  have valid := wellFormed.valid _ (mem_append_right _ (mem_of_getElem? found))
  have padded : (request.sampled ++ replicate request.padding (-1))[offset]? =
      some request.sampled[offset] := by
    rw [getElem?_append_left new, found]
  have position : min (request.numTokensNoSpec + offset) (maxModelLen - 1) =
      request.numTokensNoSpec + offset := by omega
  have unmasked : offset < request.sampled.length ∧ request.sampled[offset] ≠ -1 ∧
      request.numTokensNoSpec + offset < maxModelLen := ⟨new, by omega, by omega⟩
  obtain ⟨existing, there⟩ : ∃ existing,
      request.tokenIds[request.numTokensNoSpec + offset]? = some existing :=
    ⟨_, getElem?_eq_getElem (by omega)⟩
  have member : (request.numTokensNoSpec + offset, request.sampled[offset]) ∈ writes := by
    rw [mem_writes wellFormed positive made]
    refine ⟨offset, request.sampled[offset], existing, padded, ?_, ?_⟩
    · rw [position]
      exact there
    · rw [position, if_pos unmasked]
  rw [found]
  apply scattered.written (request.numTokensNoSpec + offset, request.sampled[offset]) member
  intro other otherMember place
  obtain ⟨offset', token', _, found', _, rfl⟩ :=
    (mem_writes wellFormed positive made).mp otherMember
  have same : offset' = offset := by omega
  subst same
  rw [padded] at found'
  cases found'
  rw [if_pos unmasked]

/-- Whatever the outcome of duplicate positions, the row holds the stored and the sampled tokens. -/
theorem scatter_inPlace :
    after.length = maxModelLen ∧ after.take request.tokens.length = request.tokens := by
  have width := wellFormed.width
  obtain ⟨length, within⟩ := wellFormed.length
  have afterLength : after.length = maxModelLen := scattered.1.trans width
  refine ⟨afterLength, ?_⟩
  apply ext_getElem?
  intro i
  by_cases inside : i < request.tokens.length
  · rw [getElem?_take, if_pos inside]
    unfold Request.tokens
    by_cases old : i < request.numTokensNoSpec
    · rw [scatter_stored wellFormed positive made scattered i old,
        getElem?_append_left (by rw [length_take]; omega), getElem?_take, if_pos old]
    · obtain ⟨offset, rfl⟩ : ∃ offset, i = request.numTokensNoSpec + offset :=
        ⟨i - request.numTokensNoSpec, by omega⟩
      rw [scatter_sampled wellFormed positive made scattered offset (by omega),
        getElem?_append_right (by rw [length_take]; omega), length_take]
      congr 1
      omega
  · rw [getElem?_eq_none (by rw [length_take]; omega), getElem?_eq_none (by omega)]

end Scatter

/-! The drafts. -/

/-- At most one n-gram is chosen. -/
theorem chosen_unique {tokens : List Int} {minNgram maxNgram n start n' start' : Nat}
    (first : Chosen tokens minNgram maxNgram n start)
    (second : Chosen tokens minNgram maxNgram n' start') : n = n' ∧ start = start' := by
  have same : n = n' := Nat.le_antisymm (second.longest n start first.least first.most first.recurs)
    (first.longest n' start' second.least second.most second.recurs)
  subst same
  exact ⟨rfl, Nat.le_antisymm (first.earliest start' second.recurs) (second.earliest start first.recurs)⟩

/-- Two limits on the drafts give the same ones exactly when the smaller one does not cut them. -/
theorem followsChosen_same {tokens drafts capped : List Int} {minNgram maxNgram k room : Nat}
    (room_pos : 0 < room) (follows : FollowsChosen tokens minNgram maxNgram k drafts)
    (followsCapped : FollowsChosen tokens minNgram maxNgram (min (k : Int) room) capped) :
    drafts = capped ↔ ∀ n start, Chosen tokens minNgram maxNgram n start →
      min k (tokens.length - (start + n)) ≤ room := by
  rcases follows with ⟨positive, n, start, chosen, rfl⟩ | ⟨none, rfl⟩
  · rcases followsCapped with ⟨_, n', start', chosen', rfl⟩ | ⟨none', _⟩
    · obtain ⟨rfl, rfl⟩ := chosen_unique chosen chosen'
      rw [take_eq_take_iff, length_drop]
      constructor
      · intro same m other another
        obtain ⟨rfl, rfl⟩ := chosen_unique chosen another
        omega
      · intro fits
        have := fits n start chosen
        omega
    · rcases none' with zero | none'
      · omega
      · exact absurd chosen.recurs (none' n start chosen.least chosen.most)
  · rcases none with zero | none
    · have empty : capped = [] := by
        rcases followsCapped with ⟨positive, _⟩ | ⟨_, empty⟩
        · omega
        · exact empty
      constructor
      · omega
      · exact fun _ => empty.symm
    · have empty : capped = [] := by
        rcases followsCapped with ⟨_, n, start, chosen, _⟩ | ⟨_, empty⟩
        · exact absurd chosen.recurs (none n start chosen.least chosen.most)
        · exact empty
      constructor
      · exact fun _ n start chosen => absurd chosen.recurs (none n start chosen.least chosen.most)
      · exact fun _ => empty.symm

variable (proposer : ProposerGPU)

/-- A row of the batch: it is drafted, and the drafts agree exactly when they fit. -/
theorem row_agrees (request : Request) (result : Result) (drafts : List Int)
    (wellFormed : request.WellFormed proposer.maxModelLen)
    (proposes : Proposes proposer request.row result)
    (follows : request.sampled ≠ [] → FollowsChosen request.tokens proposer.minN proposer.maxN
      (min proposer.k (proposer.maxModelLen - request.tokens.length : Int)) drafts)
    (silent : request.sampled = [] → drafts = []) :
    Agrees proposer.maxModelLen request result drafts ↔ request.FitsModel proposer.toProposer := by
  have positive : 0 < proposer.maxModelLen := Nat.zero_lt_of_lt proposer.k_lt
  obtain ⟨length, within⟩ := wellFormed.length
  obtain ⟨⟨writes, made, scattered⟩, forwarded⟩ := proposes
  obtain ⟨width, inPlace⟩ := scatter_inPlace wellFormed positive made scattered
  change proposer.forward (request.numTokensNoSpec + request.sampled.length) result.tokenIds
    (decide (0 < request.sampled.length ∧
      proposer.minN ≤ request.numTokensNoSpec + request.sampled.length)) = _ at forwarded
  rw [← length] at forwarded
  obtain ⟨draftTokens, count, ran, bounded, drawn, masked⟩ := proposer.forward_spec
    request.tokens.length result.tokenIds (decide (0 < request.sampled.length ∧
      proposer.minN ≤ request.tokens.length)) width within (inPlace.symm ▸ wellFormed.valid)
  rw [forwarded] at ran
  obtain ⟨rfl, rfl⟩ := ran
  rw [inPlace] at drawn
  by_cases none : request.sampled = []
  · -- nothing sampled: both leave the request out
    have unmasked := masked (decide_eq_false (by rw [none]; exact fun both => absurd both.1 (by decide)))
    constructor
    · exact fun _ => Or.inl none
    · intro _
      constructor
      · rw [unmasked, take_zero, silent none]
      · omega
      · exact inPlace
  · have sampled : 0 < request.sampled.length := length_pos_iff.mpr none
    have room : 0 < proposer.maxModelLen - request.tokens.length := by
      rcases wellFormed.unfinished with empty | room
      · exact absurd empty none
      · omega
    have gpu : FollowsChosen request.tokens proposer.minN proposer.maxN proposer.k
        (result.draftTokens.take result.numValidDraftTokens) := by
      by_cases enough : proposer.minN ≤ request.tokens.length
      · exact drawn (decide_eq_true ⟨sampled, enough⟩)
      · refine Or.inr ⟨Or.inr ?_, ?_⟩
        · intro n start least _ recurs
          have := recurs.1
          omega
        · rw [masked (decide_eq_false fun both => enough both.2), take_zero]
    have cpu := follows none
    rw [← Int.natCast_sub within] at cpu
    have same_iff := followsChosen_same room gpu cpu
    constructor
    · exact fun agrees => Or.inr (same_iff.mp agrees.same)
    · intro fits
      have same := same_iff.mpr (fits.resolve_left none)
      constructor
      · exact same
      · -- the capped drafts are no more than the room
        have count : result.numValidDraftTokens = drafts.length := by
          rw [← same, length_take]
          omega
        have capped : drafts.length ≤ proposer.maxModelLen - request.tokens.length := by
          rcases cpu with ⟨_, n, start, _, rfl⟩ | ⟨_, rfl⟩
          · rw [length_take]
            omega
          · exact Nat.zero_le _
        omega
      · exact inPlace

/-- No operation on the row is out of range. -/
theorem proposes_total (request : Request) (wellFormed : request.WellFormed proposer.maxModelLen) :
    ∃ result, Proposes proposer request.row result := by
  have positive : 0 < proposer.maxModelLen := Nat.zero_lt_of_lt proposer.k_lt
  have width := wellFormed.width
  obtain ⟨length, within⟩ := wellFormed.length
  obtain ⟨writes, made, _⟩ := tokensToScatter_spec request.row (by
    change 0 < request.tokenIds.length
    omega)
  have scattered := scatter_scattered request.tokenIds writes (by
    intro write member
    obtain ⟨offset, token, existing, _, _, rfl⟩ := (mem_writes wellFormed positive made).mp member
    omega)
  obtain ⟨afterWidth, inPlace⟩ := scatter_inPlace wellFormed positive made scattered
  obtain ⟨draftTokens, count, ran, _⟩ := proposer.forward_spec
    (request.numTokensNoSpec + request.sampled.length) _ (decide (0 < request.sampled.length ∧
      proposer.minN ≤ request.numTokensNoSpec + request.sampled.length)) afterWidth
    (length ▸ within) (by rw [← length, inPlace]; exact wellFormed.valid)
  exact ⟨⟨_, draftTokens, count⟩, ⟨writes, made, scattered⟩, ran⟩

theorem proposesBatch_total (requests : List Request)
    (wellFormed : ∀ request ∈ requests, request.WellFormed proposer.maxModelLen) :
    ∃ results, ProposesBatch proposer (requests.map Request.row) results := by
  induction requests with
  | nil => exact ⟨[], Forall₂.nil⟩
  | cons request rest ih =>
    obtain ⟨result, proposes⟩ := proposes_total proposer request (wellFormed request mem_cons_self)
    obtain ⟨results, others⟩ := ih fun other member =>
      wellFormed other (mem_cons_of_mem request member)
    exact ⟨result :: results, Forall₂.cons proposes others⟩

theorem proposesBatch_row {proposer : ProposerGPU} {rows : List Row} {results : List Result}
    (proposed : ProposesBatch proposer rows results) (i : Nat) (row : Row) (found : rows[i]? = some row) :
    ∃ result, results[i]? = some result ∧ Proposes proposer row result := by
  induction proposed generalizing i with
  | nil => contradiction
  | cons proposes _ ih =>
    cases i with
    | zero =>
      cases found
      exact ⟨_, rfl, proposes⟩
    | succ i => exact ih i found

/-- Both calls return; a row's drafts agree exactly when those of the GPU proposer fit in the model's
length. -/
theorem drafts_agree_iff (proposer : ProposerGPU) (requests : List Request) (maxNumSeqs : Nat)
    (buffers : Buffers maxNumSeqs proposer.k) (room : requests.length ≤ maxNumSeqs)
    (wellFormed : ∀ request ∈ requests, request.WellFormed proposer.maxModelLen) :
    ∃ draftTokenIds,
      (∀ fuel, (∀ request ∈ requests, 2 * request.tokens.length ≤ fuel) → ∃ after,
        proposer.propose fuel buffers (requests.map Request.sampled)
          (requests.map fun request => request.numTokensNoSpec + request.sampled.length)
          (requests.map Request.tokenIdsCpu) = some (draftTokenIds, after)) ∧
      (∃ results, ProposesBatch proposer (requests.map Request.row) results) ∧
      ∀ results, ProposesBatch proposer (requests.map Request.row) results →
        ∀ (i : Nat) request, requests[i]? = some request → ∃ result drafts,
          results[i]? = some result ∧ draftTokenIds[i]? = some drafts ∧
            (Agrees proposer.maxModelLen request result drafts ↔
              request.FitsModel proposer.toProposer) := by
  obtain ⟨draftTokenIds, runs, _, meaning⟩ := proposer.propose_spec (requests.map Request.sampled)
    (requests.map fun request => request.numTokensNoSpec + request.sampled.length)
    (requests.map Request.tokenIdsCpu) buffers (by rw [length_map]; exact room)
    (by rw [length_map, length_map]) (by rw [length_map, length_map])
  refine ⟨draftTokenIds, ?_, ?_, ?_⟩
  · intro fuel enough
    apply runs
    intro numTokens member
    obtain ⟨request, found, rfl⟩ := List.mem_map.mp member
    rw [← (wellFormed request found).length.1]
    exact enough request found
  · exact proposesBatch_total proposer requests wellFormed
  · intro results proposed i request found
    obtain ⟨result, drawn, proposes⟩ := proposesBatch_row proposed i request.row
      (by rw [getElem?_map, found, map_some])
    have own := wellFormed request (mem_of_getElem? found)
    have length := own.length.1
    obtain ⟨drafts, read, asked, silent⟩ := meaning i request.sampled
      (request.numTokensNoSpec + request.sampled.length) request.tokenIdsCpu
      (by rw [getElem?_map, found, map_some])
      (by rw [getElem?_map, found, map_some])
      (by rw [getElem?_map, found, map_some])
    have tokens : request.tokenIdsCpu.take (request.numTokensNoSpec + request.sampled.length) =
        request.tokens := by
      rw [← length]
      exact take_left
    rw [tokens] at asked
    refine ⟨result, drafts, drawn, read, row_agrees proposer request result drafts own proposes ?_ ?_⟩
    · intro sampled
      apply asked
      refine ⟨sampled, ?_⟩
      exact own.unfinished.resolve_left sampled
    · intro none
      exact silent fun asks => asks.1 none

/-- N-grams of one or two tokens, three drafts, a model of eight tokens. -/
def smallProposer : ProposerGPU where
  minN := 1
  maxN := 2
  k := 3
  maxModelLen := 8
  minN_pos := by decide
  minN_le := by decide
  maxN_le := by decide
  k_lt := by decide

def smallBuffers : Buffers 1 smallProposer.k where
  validNgramDraft := [[0, 0, 0]]
  validNgramNumDrafts := [0]
  draft_rows := rfl
  numDrafts_rows := rfl
  width := by decide

/-- Two tokens follow the first `5`, and five more fit. -/
def earlyRequest : Request where
  tokenIds := [5, 6, 0, 0, 0, 0, 0, 0]
  numTokensNoSpec := 2
  sampled := [5]
  padding := 3

/-- Four tokens follow the first `6, 5`, and one more fits. -/
def lateRequest : Request where
  tokenIds := [5, 6, 5, 6, 5, 6, 0, 0]
  numTokensNoSpec := 6
  sampled := [5]
  padding := 3

theorem earlyRequest_agree_iff : ∃ draftTokenIds,
    (∀ fuel, (∀ request ∈ [earlyRequest], 2 * request.tokens.length ≤ fuel) → ∃ after,
      smallProposer.propose fuel smallBuffers ([earlyRequest].map Request.sampled)
        ([earlyRequest].map fun request => request.numTokensNoSpec + request.sampled.length)
        ([earlyRequest].map Request.tokenIdsCpu) = some (draftTokenIds, after)) ∧
    (∃ results, ProposesBatch smallProposer ([earlyRequest].map Request.row) results) ∧
    ∀ results, ProposesBatch smallProposer ([earlyRequest].map Request.row) results →
      ∀ (i : Nat) request, [earlyRequest][i]? = some request → ∃ result drafts,
        results[i]? = some result ∧ draftTokenIds[i]? = some drafts ∧
          (Agrees smallProposer.maxModelLen request result drafts ↔
            request.FitsModel smallProposer.toProposer) :=
  drafts_agree_iff smallProposer [earlyRequest] 1 smallBuffers (by decide) (by
    intro request member
    rw [mem_singleton.mp member]
    exact ⟨rfl, by decide, Or.inr (by decide), by decide⟩)

/-- The GPU proposer drafts two tokens more than the model's length has room for. -/
theorem lateRequest_notAgrees : lateRequest.WellFormed smallProposer.maxModelLen ∧
    ∃ result drafts after, Proposes smallProposer lateRequest.row result ∧
      smallProposer.propose 14 smallBuffers [lateRequest.sampled] [7] [lateRequest.tokenIdsCpu] =
        some ([drafts], after) ∧
      ¬ Agrees smallProposer.maxModelLen lateRequest result drafts := by
  constructor
  · exact ⟨rfl, by decide, Or.inr (by decide), by decide⟩
  · refine ⟨⟨[5, 6, 5, 6, 5, 6, 5, 0], [6, 5, 6], 3⟩, [6], _, ⟨⟨_, rfl, ?_⟩, ?_⟩, rfl, ?_⟩
    · decide
    · decide
    · intro agrees
      exact absurd agrees.same (by decide)

end VllmDcu.NgramAgreement

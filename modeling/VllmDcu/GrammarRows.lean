import VllmDcu.GrammarMasks

/-! The worker's side of the bitmask: the rows are sorted into the order of its batch, one row
for each draft token and one more for each request. -/
namespace VllmDcu.GrammarRows
open Requests (Token ReqId)
open StructuredOutput StructuredOutputGrammar GrammarBitmask GrammarMasks List Option Dict

variable {Num : Type}

/-- The first logits row of a request. -/
def rowStart (specTokens : Dict ReqId (List Token)) : List ReqId → ReqId → Option Nat
  | [], _ => none
  | first :: rest, reqId =>
    if first = reqId then some 0
    else (rowStart specTokens rest reqId).map
      fun start => (draftsOf specTokens first).length + 1 + start

/-- The logits rows of a batch. -/
def rowCount (specTokens : Dict ReqId (List Token)) (reqIds : List ReqId) : Nat :=
  (reqIds.map fun reqId => (draftsOf specTokens reqId).length + 1).sum

variable (specTokens : Dict ReqId (List Token)) (reqIds : List ReqId)

theorem rowStart_none (reqId : ReqId) (missing : reqId ∉ reqIds) :
    rowStart specTokens reqIds reqId = none := by
  induction reqIds with
  | nil => rfl
  | cons first rest ih =>
    rw [mem_cons, not_or] at missing
    rw [rowStart, if_neg (Ne.symm missing.1), ih missing.2, map_none]

theorem rowStart_room (reqId : ReqId) (start : Nat)
    (found : rowStart specTokens reqIds reqId = some start) :
    start + ((draftsOf specTokens reqId).length + 1) ≤ rowCount specTokens reqIds := by
  induction reqIds generalizing start with
  | nil => cases found
  | cons first rest ih =>
    rw [rowCount, map_cons, sum_cons, ← rowCount]
    rw [rowStart] at found
    by_cases here : first = reqId
    · rw [if_pos here] at found
      obtain rfl := some.inj found
      subst here
      omega
    · rw [if_neg here] at found
      obtain ⟨later, inRest, rfl⟩ := map_eq_some_iff.mp found
      have room := ih later inRest
      omega

/-- The rows of different requests do not overlap. -/
theorem rowStart_apart :
    ∀ reqId other first second, reqId ≠ other → rowStart specTokens reqIds reqId = some first →
      rowStart specTokens reqIds other = some second →
        first + ((draftsOf specTokens reqId).length + 1) ≤ second ∨
          second + ((draftsOf specTokens other).length + 1) ≤ first := by
  induction reqIds with
  | nil =>
    intro reqId other first second _ found
    cases found
  | cons head rest ih =>
    intro reqId other first second differ here there
    rw [rowStart] at here there
    by_cases isFirst : head = reqId
    · rw [if_pos isFirst] at here
      have notOther : head ≠ other := fun same => differ (isFirst.symm.trans same)
      rw [if_neg notOther] at there
      obtain rfl := some.inj here
      obtain ⟨later, _, rfl⟩ := map_eq_some_iff.mp there
      subst isFirst
      omega
    · rw [if_neg isFirst] at here
      obtain ⟨start, inRest, rfl⟩ := map_eq_some_iff.mp here
      by_cases isOther : head = other
      · rw [if_pos isOther] at there
        obtain rfl := some.inj there
        subst isOther
        omega
      · rw [if_neg isOther] at there
        obtain ⟨start', inRest', rfl⟩ := map_eq_some_iff.mp there
        have apart := ih reqId other start start' differ inRest inRest'
        omega

/-- The loop over the batch finds the first row of every structured output request. -/
theorem batchIndices_get {specTokens : Dict ReqId (List Token)} {structured reqIds : List ReqId}
    (distinct : reqIds.Nodup) {batchIndex cumulativeOffset : Nat} {indices : Dict ReqId Nat}
    {reqId : ReqId} (member : reqId ∈ structured) :
    (batchIndices specTokens structured reqIds batchIndex cumulativeOffset indices).get? reqId =
      match rowStart specTokens reqIds reqId with
      | none => indices.get? reqId
      | some start => some (batchIndex + cumulativeOffset + start) := by
  induction reqIds generalizing batchIndex cumulativeOffset indices with
  | nil => rfl
  | cons first rest ih =>
    rw [nodup_cons] at distinct
    rw [batchIndices, ih distinct.2, rowStart]
    by_cases here : first = reqId
    · subst here
      rw [rowStart_none specTokens rest first distinct.1, if_pos member]
      simp
    · have kept : (if first ∈ structured then indices.set first (batchIndex + cumulativeOffset)
          else indices).get? reqId = indices.get? reqId := by
        split
        · rw [get?_set, if_neg (Ne.symm here)]
        · rfl
      rw [if_neg here, kept]
      cases rowStart specTokens rest reqId with
      | none => rfl
      | some start =>
        simp only [map_some, some.injEq]
        omega

theorem copyRows_rows (bitmask : List Row) (cumulativeIndex logitIdx count i : Nat)
    (sorted : List Row) (outIndices : List Nat)
    (rows : cumulativeIndex + i + count ≤ bitmask.length)
    (room : logitIdx + i + count ≤ sorted.length) :
    copyRows bitmask cumulativeIndex logitIdx count i (sorted, outIndices) =
      some (writeAt sorted (logitIdx + i) ((bitmask.drop (cumulativeIndex + i)).take count),
        outIndices ++ List.range' (logitIdx + i) count) := by
  induction count generalizing i sorted outIndices with
  | zero => simp [copyRows, writeAt]
  | succ count ih =>
    obtain ⟨row, found⟩ : ∃ row, bitmask[cumulativeIndex + i]? = some row :=
      ⟨bitmask[cumulativeIndex + i], getElem?_eq_getElem (by omega)⟩
    have split : (bitmask.drop (cumulativeIndex + i)).take (count + 1) =
        row :: (bitmask.drop (cumulativeIndex + (i + 1))).take count := by
      have head : bitmask.drop (cumulativeIndex + i) =
          row :: bitmask.drop (cumulativeIndex + i + 1) := by
        obtain ⟨below, rfl⟩ := List.getElem?_eq_some_iff.mp found
        exact drop_eq_getElem_cons below
      rw [head, take_succ_cons, Nat.add_assoc]
    simp only [copyRows, found]
    rw [if_pos (by omega), ih (i + 1) _ _ (by omega) (by rw [length_set]; omega), split,
      writeAt, range'_succ, append_assoc, singleton_append, Nat.add_assoc]

/-- The blocks of the requests that are in the batch, written one after another. -/
def placeRows (start : ReqId → Option Nat) (rows : ReqId → List Row) :
    List ReqId → List Row → List Row
  | [], sorted => sorted
  | reqId :: rest, sorted =>
    placeRows start rows rest
      (match start reqId with
      | none => sorted
      | some first => writeAt sorted first (rows reqId))

def placedIndices (start : ReqId → Option Nat) (rows : ReqId → List Row) (reqId : ReqId) :
    List Nat :=
  match start reqId with
  | none => []
  | some first => List.range' first (rows reqId).length

theorem sortRows_rows (bitmask : List Row) {indices : Dict ReqId Nat} {rows : ReqId → List Row}
    {reqIds : List ReqId}
    (lengths : ∀ reqId ∈ reqIds, (rows reqId).length = (draftsOf specTokens reqId).length + 1)
    {size : Nat}
    (inside : ∀ reqId ∈ reqIds, ∀ first, indices.get? reqId = some first →
      first + (rows reqId).length ≤ size) (before : List Row)
    (whole : bitmask = before ++ reqIds.flatMap rows) (sorted : List Row) (outIndices : List Nat)
    (room : sorted.length = size) :
    sortRows specTokens bitmask indices reqIds before.length (sorted, outIndices) =
      some (placeRows indices.get? rows reqIds sorted,
        outIndices ++ reqIds.flatMap (placedIndices indices.get? rows)) := by
  induction reqIds generalizing before sorted outIndices with
  | nil => simp [sortRows, placeRows]
  | cons reqId rest ih =>
    have length := lengths reqId mem_cons_self
    have wholeNow : bitmask = (before ++ rows reqId) ++ rest.flatMap rows := by
      rw [whole, flatMap_cons, append_assoc]
    have next : before.length + (1 + (draftsOf specTokens reqId).length) =
        (before ++ rows reqId).length := by
      rw [length_append, length, Nat.add_comm 1]
    have later := ih (fun other member => lengths other (mem_cons_of_mem _ member))
      (fun other member => inside other (mem_cons_of_mem _ member)) (before ++ rows reqId)
      wholeNow
    rw [sortRows, placeRows, flatMap_cons]
    cases found : indices.get? reqId with
    | none =>
      simp only [next]
      rw [later sorted outIndices room]
      simp only [placedIndices, found, nil_append]
    | some first =>
      have fits := inside reqId mem_cons_self first found
      have slice : (bitmask.drop (before.length + 0)).take (1 + (draftsOf specTokens reqId).length)
          = rows reqId := by
        rw [wholeNow, Nat.add_zero, append_assoc, drop_left, Nat.add_comm 1, ← length, take_left]
      have copied := copyRows_rows bitmask before.length first
        (1 + (draftsOf specTokens reqId).length) 0 sorted outIndices
        (by
          rw [wholeNow, length_append]
          omega)
        (by omega)
      rw [slice] at copied
      simp only [copied, next]
      rw [later _ _ (by rw [writeAt_length]; exact room)]
      simp only [placedIndices, found, Nat.add_zero, length, Nat.add_comm 1, append_assoc]

variable (start : ReqId → Option Nat) (rows : ReqId → List Row)

theorem placeRows_length (reqIds : List ReqId) (sorted : List Row) :
    (placeRows start rows reqIds sorted).length = sorted.length := by
  induction reqIds generalizing sorted with
  | nil => rfl
  | cons reqId rest ih =>
    rw [placeRows, ih]
    cases start reqId with
    | none => rfl
    | some first => exact writeAt_length sorted first (rows reqId)

/-- A row outside of all blocks stays. -/
theorem placeRows_other (reqIds : List ReqId) (sorted : List Row) (i : Nat)
    (inside : ∀ reqId ∈ reqIds, ∀ first, start reqId = some first →
      first + (rows reqId).length ≤ sorted.length)
    (outside : i ∉ reqIds.flatMap (placedIndices start rows)) :
    (placeRows start rows reqIds sorted)[i]? = sorted[i]? := by
  induction reqIds generalizing sorted with
  | nil => rfl
  | cons reqId rest ih =>
    rw [flatMap_cons, mem_append, not_or, placedIndices] at outside
    rw [placeRows]
    cases found : start reqId with
    | none =>
      exact ih sorted (fun other member => inside other (mem_cons_of_mem _ member)) outside.2
    | some first =>
      rw [found] at outside
      have fits := inside reqId mem_cons_self first found
      rw [ih _ (fun other member => by
        rw [writeAt_length]
        exact inside other (mem_cons_of_mem _ member)) outside.2,
        writeAt_get _ _ _ _ fits]
      apply if_neg
      rintro ⟨low, high⟩
      exact outside.1 (mem_range'_1.mpr ⟨low, high⟩)

/-- Every block holds its own rows in the end. -/
theorem placeRows_block {reqIds : List ReqId} (distinct : reqIds.Nodup)
    (apart : ∀ reqId ∈ reqIds, ∀ other ∈ reqIds, reqId ≠ other → ∀ first second,
      start reqId = some first → start other = some second →
        first + (rows reqId).length ≤ second ∨ second + (rows other).length ≤ first)
    (sorted : List Row)
    (inside : ∀ reqId ∈ reqIds, ∀ first, start reqId = some first →
      first + (rows reqId).length ≤ sorted.length) {reqId : ReqId} (member : reqId ∈ reqIds)
    {first : Nat} (found : start reqId = some first) (p : Nat) (within : p < (rows reqId).length) :
    (placeRows start rows reqIds sorted)[first + p]? = (rows reqId)[p]? := by
  induction reqIds generalizing sorted with
  | nil => cases member
  | cons head rest ih =>
    rw [nodup_cons] at distinct
    have insideRest : ∀ other ∈ rest, ∀ begin, start other = some begin →
        begin + (rows other).length ≤ sorted.length :=
      fun other inRest => inside other (mem_cons_of_mem _ inRest)
    rw [placeRows]
    by_cases here : head = reqId
    · subst here
      have fits := inside head mem_cons_self first found
      simp only [found]
      rw [placeRows_other start rows rest _ _ (by
        intro other inRest
        rw [writeAt_length]
        exact insideRest other inRest), writeAt_get _ _ _ _ fits, if_pos (by omega),
        Nat.add_sub_cancel_left]
      intro listed
      obtain ⟨other, inRest, there⟩ := mem_flatMap.mp listed
      have differ : head ≠ other := fun same => distinct.1 (same ▸ inRest)
      rw [placedIndices] at there
      cases begun : start other with
      | none =>
        rw [begun] at there
        cases there
      | some begin =>
        rw [begun] at there
        have bounds := mem_range'_1.mp there
        have away := apart head mem_cons_self other (mem_cons_of_mem _ inRest) differ
          first begin found begun
        omega
    · have inRest : reqId ∈ rest := by
        cases mem_cons.mp member with
        | inl same => exact absurd same.symm here
        | inr later => exact later
      apply ih distinct.2 (fun one inOne two inTwo =>
        apart one (mem_cons_of_mem _ inOne) two (mem_cons_of_mem _ inTwo)) _ _ inRest
      intro other otherInRest begin begun
      cases start head with
      | none => exact insideRest other otherInRest begin begun
      | some place =>
        rw [writeAt_length]
        exact insideRest other otherInRest begin begun

@[simp] theorem maskRow_full (logits : LogitsRow Num) : maskRow fullMask logits = logits := rfl

theorem map_maskRow_full (logits : Option (LogitsRow Num)) :
    logits.map (maskRow fullMask) = logits := by
  cases logits with
  | none => rfl
  | some row => rfl

/-- The worker masks the rows of each structured output request in its batch with that request's
rows of the bitmask. -/
theorem applyGrammarBitmask_rows (structured : List ReqId) (listed : structured.Nodup)
    (rows : ReqId → List Row)
    (lengths : ∀ reqId ∈ structured, (rows reqId).length = (draftsOf specTokens reqId).length + 1)
    (reqIds : List ReqId) (distinct : reqIds.Nodup) (logits : List (LogitsRow Num))
    (size : logits.length = rowCount specTokens reqIds) :
    ∃ masked, applyGrammarBitmask specTokens ⟨structured, structured.flatMap rows⟩ reqIds logits =
        some masked ∧
      ∀ reqId start, rowStart specTokens reqIds reqId = some start →
        ∀ p ≤ (draftsOf specTokens reqId).length, masked[start + p]? =
          logits[start + p]?.map (maskRow
            (if reqId ∈ structured then ((rows reqId)[p]?).getD fullMask else fullMask)) := by
  have starts : ∀ reqId ∈ structured, (batchIndices specTokens structured reqIds 0 0
      empty).get? reqId = rowStart specTokens reqIds reqId := by
    intro reqId member
    rw [batchIndices_get distinct member]
    cases rowStart specTokens reqIds reqId with
    | none => rfl
    | some start => simp
  generalize indices : batchIndices specTokens structured reqIds 0 0 empty = found at starts
  have inside : ∀ reqId ∈ structured, ∀ first, found.get? reqId = some first →
      first + (rows reqId).length ≤ logits.length := by
    intro reqId member first begun
    rw [starts reqId member] at begun
    rw [lengths reqId member, size]
    exact rowStart_room specTokens reqIds reqId first begun
  have sorting := sortRows_rows specTokens (structured.flatMap rows) lengths inside [] rfl (replicate logits.length fullMask) []
    length_replicate
  rw [length_nil, nil_append] at sorting
  have length := placeRows_length found.get? rows structured (replicate logits.length fullMask)
  have insideSorted : ∀ reqId ∈ structured, ∀ first, found.get? reqId = some first →
      first + (rows reqId).length ≤ (replicate logits.length fullMask).length := by
    rw [length_replicate]
    exact inside
  rw [length_replicate] at length
  have others (i : Nat) (outside : i ∉ structured.flatMap (placedIndices found.get? rows)) :
      ((placeRows found.get? rows structured (replicate logits.length fullMask))[i]?).getD
        fullMask = fullMask := by
    rw [placeRows_other found.get? rows structured _ i insideSorted outside, getElem?_replicate]
    split
    · rfl
    · rfl
  generalize placed : placeRows found.get? rows structured
    (replicate logits.length fullMask) = sorted at sorting length others
  have masks : ∃ masked, applyGrammarBitmask specTokens ⟨structured, structured.flatMap rows⟩
      reqIds logits = some masked ∧
        ∀ i : Nat, masked[i]? = logits[i]?.map (maskRow (sorted[i]?.getD fullMask)) := by
    simp only [applyGrammarBitmask, indices, sorting, map_some]
    split
    · refine ⟨_, rfl, fun i => ?_⟩
      rw [applyTokenBitmaskInplace, getElem?_zipWith]
      by_cases below : i < logits.length
      · rw [getElem?_eq_getElem below, getElem?_eq_getElem (length ▸ below)]
        rfl
      · rw [List.getElem?_eq_none_iff.mpr (Nat.le_of_not_lt below)]
        cases sorted[i]? with
        | none => rfl
        | some row => rfl
    · refine ⟨_, rfl, fun i => ?_⟩
      rw [applyTokenBitmaskInplace, getElem?_mapIdx]
      congr 1
      funext row
      by_cases listedHere : i ∈ structured.flatMap (placedIndices found.get? rows)
      · rw [if_pos listedHere]
      · rw [if_neg listedHere, others i listedHere, maskRow_full]
  obtain ⟨masked, applied, values⟩ := masks
  refine ⟨masked, applied, fun reqId start begun p within => ?_⟩
  rw [values]
  congr 2
  by_cases member : reqId ∈ structured
  · rw [if_pos member, ← placed]
    have begunNow := begun
    rw [← starts reqId member] at begunNow
    rw [placeRows_block found.get? rows listed _ _ insideSorted member
      begunNow p (by rw [lengths reqId member]; omega)]
    intro one inOne two inTwo differ first second here there
    rw [starts one inOne] at here
    rw [starts two inTwo] at there
    rw [lengths one inOne, lengths two inTwo]
    exact rowStart_apart specTokens reqIds one two first second differ here there
  · rw [if_neg member]
    apply others
    intro inside
    obtain ⟨other, inOther, there⟩ := mem_flatMap.mp inside
    have differ : reqId ≠ other := fun same => member (same ▸ inOther)
    rw [placedIndices, starts other inOther, lengths other inOther] at there
    cases begunOther : rowStart specTokens reqIds other with
    | none =>
      rw [begunOther] at there
      cases there
    | some second =>
      rw [begunOther] at there
      have bounds := mem_range'_1.mp there
      have away := rowStart_apart specTokens reqIds reqId other start second differ begun begunOther
      omega

end VllmDcu.GrammarRows

import VllmDcu.PreparedPasses

/-! The first pass with extra slots: the kernel stores every output once, and the new slot mapping follows
the positions that it stored. -/
namespace VllmDcu.PaddedDrafting
open RaggedArrays TensorRows AttentionMetadata DraftInputs FirstPass
open DraftSteps (paddingSlotId slotOf)
open List Option

variable {Hidden : Type}

/-! The kernel. -/

section Kernel

/-- What a lane of request `i` stores: of `len` tokens `kept` were not rejected, `net` slots come in. -/
structure Stores (i start len kept net slots startPos j : Nat) (lane : Lane) : Prop where
  inBounds : lane.inBounds = decide (j < len + net)
  outIdx : lane.outIdx = ((start + i * net + j : Nat) : Int)
  isRejected : j < len + net → lane.isRejected = decide (kept + net ≤ j)
  position : lane.position = if kept + net ≤ j then 0 else startPos + j
  newTokenIdx : ∀ x ∈ lane.newTokenIdx, ((i * slots : Nat) : Int) ≤ x ∧ x < (i * slots + slots : Nat)
  sourceIdx : ∀ x ∈ lane.sourceIdx, x = ((start + j : Nat) : Int) ∧ j < len

theorem expandLane_stores (args : ExpandArgs) {net i start len kept : Nat} (startPos : Nat) (bonus : Int)
    (j : Nat) (slots : args.numPaddingSlotsPerRequest = net + if args.shiftInputIds then 1 else 0)
    (some_ : 0 < kept) :
    Stores i start len kept net args.numPaddingSlotsPerRequest startPos j
      (expandLane args i start ((start + len : Nat) : Int) ((start + (kept - 1) : Nat) : Int) startPos bonus
        j) := by
  have valid : (if args.shiftInputIds then ((start + (kept - 1) : Nat) : Int) - start
      else ((start + (kept - 1) : Nat) : Int) - start + 1) + args.numPaddingSlotsPerRequest =
        ((kept + net : Nat) : Int) := by
    split at slots
    · rename_i shift
      rw [if_pos shift, slots]
      omega
    · rename_i shift
      rw [if_neg shift, slots]
      omega
  have out : (if args.shiftInputIds then (start : Int) + i * ((args.numPaddingSlotsPerRequest : Int) - 1)
      else (start : Int) + i * args.numPaddingSlotsPerRequest) = ((start + i * net : Nat) : Int) := by
    split at slots
    · rename_i shift
      rw [if_pos shift, slots, Int.natCast_add net, Int.natCast_one, Int.add_sub_cancel, Int.natCast_add,
        Int.natCast_mul]
    · rename_i shift
      rw [if_neg shift, slots, Nat.add_zero, Int.natCast_add, Int.natCast_mul]
  constructor <;> simp only [expandLane, mem_def]
  · apply decide_eq_decide.mpr
    omega
  · omega
  · intro inside
    rw [Bool.and_comm, decide_eq_true (by omega), Bool.true_and]
    apply decide_eq_decide.mpr
    omega
  · simp only [decide_eq_true_eq]
    exact if_congr (by omega) rfl rfl
  · intro x stored
    obtain ⟨region, same⟩ := ite_none_right_eq_some.mp stored
    simp only [decide_eq_true_eq] at region
    cases same
    omega
  · intro x stored
    obtain ⟨region, same⟩ := ite_none_right_eq_some.mp stored
    cases same
    omega

/-- A program per block and request makes a row of lanes for every request. -/
theorem expandLaunch_ragged (args : ExpandArgs) (batchSize numBlocks : Nat) (lane : Nat → Nat → Lane)
    (each : ∀ i < batchSize, ∀ block, expandProgram args i block =
      some ((List.range' (block * args.blockSizeTokens) args.blockSizeTokens).map (lane i))) :
    expandLaunch args batchSize numBlocks =
      some (ragged batchSize (fun _ => numBlocks * args.blockSizeTokens) lane) := by
  have row (i : Nat) (inside : i < batchSize) :
      ((range numBlocks).mapM (expandProgram args i)).map flatten =
        some ((range (numBlocks * args.blockSizeTokens)).map (lane i)) := by
    rw [mapM_some _ _ _ fun block _ => each i inside block, map_some, blocks_lanes]
  rw [expandLaunch, mapM_some _ _ _ fun i listed => row i (mem_range.mp listed), map_some,
    ragged, flatMap]

/-- Blocks that cover `size` lanes. -/
theorem blocks_cover {size block : Nat} (positive : 0 < block) :
    size ≤ (size + block - 1) / block * block := by
  have parts := Nat.div_add_mod' (size + block - 1) block
  have := Nat.mod_lt (size + block - 1) positive
  omega

end Kernel

section Launch
variable (self : Proposer Hidden) (batch : Batch Hidden)

/-- The tokens of a request in a pass with extra slots. -/
def newLen (i : Nat) : Nat := batch.queryLen i + self.netNumNewSlotsPerRequest

/-- The lanes of all requests. -/
def LanesStore (lane : Nat → Nat → Lane) : Prop :=
  ∀ i < batch.numReqs, ∀ j, Stores i (rowStart batch.queryLen i) (batch.queryLen i) (batch.kept i)
    self.netNumNewSlotsPerRequest self.extraSlotsPerRequest (batch.position i 0) j (lane i j)

variable {batch}

theorem expandLaunch_stores (proper : batch.Proper) {rejected : Option (List Int)}
    (wide : self.needsExtraInputSlots = true)
    (ends : (launch self batch rejected).1.queryEndLoc = counts batch.numReqs (lastPlace batch batch.queryLen)) :
    ∃ (size : Nat) (lane : Nat → Nat → Lane),
      expandLaunch (launch self batch rejected).1 (launch self batch rejected).2.1
        (launch self batch rejected).2.2 = some (ragged batch.numReqs (fun _ => size) lane) ∧
      (∀ i < batch.numReqs, newLen self batch i ≤ size) ∧ LanesStore self batch lane := by
  have net := of_decide_eq_true wide
  have slots : self.extraSlotsPerRequest =
      self.netNumNewSlotsPerRequest + if self.passHiddenStatesToModel then 1 else 0 := by
    rw [Proposer.netNumNewSlotsPerRequest] at net ⊢
    omega
  refine ⟨(launch self batch rejected).2.2 * (launch self batch rejected).1.blockSizeTokens,
    fun i j => expandLane (launch self batch rejected).1 i (rowStart batch.queryLen i)
      ((rowStart batch.queryLen i + batch.queryLen i : Nat) : Int) (lastPlace batch batch.queryLen i : Int)
      (batch.position i 0) (batch.nextToken i) j, ?_, ?_, ?_⟩
  · have size : (launch self batch rejected).2.1 = batch.numReqs := column_length ..
    rw [size]
    apply expandLaunch_ragged
    intro i inside block
    have first : batch.target.positions[rowStart batch.queryLen i]? = some (batch.position i 0) :=
      ragged_get batch.position inside (proper.scheduled i inside)
    rw [expandProgram, ends]
    dsimp only [launch, Proposer.expandArgs]
    rw [common_queryStartLoc, counts, counts, column_get (by omega), column_get (by omega),
      column_get inside, column_get inside, start_succ]
    simp only [bind_eq_bind, bind_some, Int.toNat_natCast, first]
  · intro i inside
    have longest : (batch.queryLen i : Int) ≤ batch.common.maxQueryLen :=
      (max?_eq_some_iff.mp (max_known proper fun i => (batch.queryLen i : Int))).2 _
        (List.mem_map.mpr ⟨i, mem_range.mpr inside, rfl⟩)
    refine Nat.le_trans ?_ (blocks_cover ?_)
    · rw [newLen]
      omega
    · have := le_nextPowerOf2 (batch.common.maxQueryLen.toNat + self.netNumNewSlotsPerRequest)
      omega
  · intro i inside j
    exact expandLane_stores (launch self batch rejected).1 _ _ j slots (kept_spec proper inside).1

end Launch

/-! The slots. -/

section Slots
variable {batch : Batch Hidden}

theorem start_const (i size : Nat) : rowStart (fun _ => size) i = i * size := by
  induction i with
  | zero => rw [Nat.zero_mul]; rfl
  | succ i ih => rw [start_succ, ih, Nat.succ_mul]

/-- Where the requests start when each has `net` more. -/
theorem start_wide {count : Nat → Nat} {net i : Nat} :
    rowStart (fun k => count k + net) i = rowStart count i + i * net := by
  induction i with
  | zero => rw [Nat.zero_mul]; rfl
  | succ i ih =>
    rw [start_succ, start_succ, ih, Nat.succ_mul]
    omega

theorem computeNewSlotMapping_eq (some_ : 0 < batch.numReqs) {blockSize maxModelLen : Nat} {net : Nat}
    (positive : 0 < maxModelLen) (covers : maxModelLen ≤ batch.numBlocks * blockSize)
    (positions : Nat → Nat → Nat) (isRejected : Nat → Nat → Bool) :
    ∃ slot, computeNewSlotMapping batch.common
        (ragged batch.numReqs (fun i => batch.queryLen i + net) positions)
        (ragged batch.numReqs (fun i => batch.queryLen i + net) isRejected) blockSize net maxModelLen =
          some (ragged batch.numReqs (fun i => batch.queryLen i + net) slot) ∧
      ∀ i j, isRejected i j = false → some (slot i j) =
        if maxModelLen ≤ positions i j then some paddingSlotId
        else slotOf blockSize (column batch.numBlocks (batch.block i)) (positions i j) := by
  have blockOf {position : Nat} (inside : position < maxModelLen) :
      position / blockSize < batch.numBlocks := by
    apply Nat.div_lt_of_lt_mul
    rw [Nat.mul_comm]
    omega
  have width : (batch.common.blockTable.head?.map length).getD 0 = batch.numBlocks := by
    have first : batch.common.blockTable[0]? = some (column batch.numBlocks (batch.block 0)) :=
      column_get some_
    rw [head?_eq_getElem?, first, map_some, column_length, getD_some]
  have lengths : (batch.common.queryLens.map fun (len : Int) => len + net).mapM Int.toNat? =
      some (column batch.numReqs fun i => batch.queryLen i + net) := by
    rw [common_queryLens, counts, map_column]
    exact mapM_column _ _ _ _ fun _ _ => rfl
  have rows : range batch.common.blockTable.length = column batch.numReqs id := by
    rw [Batch.common, column_length, column, List.map_id]
  refine ⟨fun i j => if isRejected i j then paddingSlotId
    else if positions i j ≥ maxModelLen then paddingSlotId
    else (batch.block i (min (positions i j) (maxModelLen - 1) / blockSize) * blockSize +
      min (positions i j) (maxModelLen - 1) % blockSize : Nat), ?_, ?_⟩
  · rw [computeNewSlotMapping, width, lengths]
    simp only [bind_eq_bind, bind_some]
    rw [rows, repeats_column, zip_ragged, zip_ragged]
    apply mapM_ragged
    intro i inside j _
    have clamped : min (positions i j) (maxModelLen - 1) / blockSize < batch.numBlocks :=
      blockOf (by omega)
    have found : (ragged batch.numReqs (fun _ => batch.numBlocks) batch.block)[rowStart
        (fun _ => batch.numBlocks) i + min (positions i j) (maxModelLen - 1) / blockSize]? = _ :=
      ragged_get batch.block inside clamped
    rw [start_const] at found
    change ((ragged batch.numReqs (fun _ => batch.numBlocks) batch.block)[_]?).map _ = _
    rw [id, found, map_some]
  · intro i j accepted
    dsimp only
    rw [accepted, if_neg Bool.false_ne_true]
    by_cases beyond : maxModelLen ≤ positions i j
    · rw [if_pos beyond, if_pos beyond]
    · have clamped : min (positions i j) (maxModelLen - 1) = positions i j := by omega
      rw [if_neg beyond, if_neg beyond, clamped, slotOf, column_get (blockOf (by omega)), map_some]

end Slots

/-! The pass. -/

section Expanded
variable (self : Proposer Hidden) {batch : Batch Hidden}

theorem newLen_start (i : Nat) : rowStart (newLen self batch) i =
    rowStart batch.queryLen i + i * self.netNumNewSlotsPerRequest :=
  start_wide

/-- A pass with extra slots: the launch stores every output once, in order; every output that is not one of
a rejected token has the position it is at and the slot of that position in the request's blocks. -/
structure Expanded (batch : Batch Hidden) (pass : Pass Hidden) (rejected : Option (List Int)) : Prop where
  numTokens : pass.numTokens =
    rowStart batch.queryLen batch.numReqs + batch.numReqs * self.netNumNewSlotsPerRequest
  stores : ∃ lanes, expandLaunch (launch self batch rejected).1 (launch self batch rejected).2.1
      (launch self batch rejected).2.2 = some lanes ∧
    (lanes.filter Lane.inBounds).map Lane.outIdx =
      (List.range pass.numTokens).map fun (index : Nat) => (index : Int)
  outputs : ∀ i < batch.numReqs, ∀ j < newLen self batch i,
    let index := rowStart batch.queryLen i + i * self.netNumNewSlotsPerRequest + j
    let position := batch.position i 0 + j
    pass.proposer.isRejectedTokenMask[index]? =
        some (decide (batch.kept i + self.netNumNewSlotsPerRequest ≤ j)) ∧
      (j < batch.kept i + self.netNumNewSlotsPerRequest →
        pass.proposer.positions[index]? = some position ∧
        pass.common.slotMapping[index]? =
          if self.maxModelLen ≤ position then some paddingSlotId
          else slotOf self.blockSize (column batch.numBlocks (batch.block i)) position)

section Stored
variable {size : Nat} {lane : Nat → Nat → Lane} (stores : LanesStore self batch lane)
include stores

variable (size) in
/-- The stores of the new tokens' places are in range. -/
theorem putAt_newTokens :
    ∃ after, putAt (List.replicate (batch.numReqs * self.extraSlotsPerRequest) (0 : Int))
      ((ragged batch.numReqs (fun _ => size) lane).filterMap Lane.newTokenIdx)
      (((ragged batch.numReqs (fun _ => size) lane).filter fun lane => lane.newTokenIdx.isSome).map
        Lane.outIdx) = some after := by
  obtain ⟨after, put, _⟩ := putAt_within
    (replicate (batch.numReqs * self.extraSlotsPerRequest) (0 : Int)) _ (by
      intro index member
      obtain ⟨stored, listed, placed⟩ := mem_filterMap.mp member
      obtain ⟨i, inside, j, _, rfl⟩ := mem_ragged listed
      have bounds := (stores i inside j).newTokenIdx index placed
      have last := Nat.mul_le_mul_right self.extraSlotsPerRequest (Nat.succ_le_of_lt inside)
      rw [Nat.succ_mul] at last
      rw [length_replicate]
      omega)
  exact ⟨after, put⟩

/-- So are those of the hidden states. -/
theorem expandHiddenStates_some (masked : List Bool) (total : Nat)
    (fits : rowStart (newLen self batch) batch.numReqs ≤ self.hiddenStates.length)
    (some_ : 0 < self.hiddenStates.length) :
    (self.expandHiddenStates batch.target (ragged batch.numReqs (fun _ => size) lane) total
      masked).isSome := by
  obtain ⟨mapping, put, entries⟩ := putAt_within (replicate batch.target.tokenIds.length (0 : Int))
    (((ragged batch.numReqs (fun _ => size) lane).filter fun lane => lane.sourceIdx.isSome).map Lane.outIdx) (by
      intro index member
      obtain ⟨stored, listed, placed⟩ := mem_filterMap.mp member
      obtain ⟨i, inside, j, _, rfl⟩ := mem_ragged listed
      obtain ⟨rfl, within⟩ := (stores i inside j).sourceIdx index placed
      have bound := place_lt inside within
      rw [length_replicate, Batch.target, ragged_length]
      omega)
  obtain ⟨hiddenStates, placed, _⟩ := putAt_within self.hiddenStates batch.target.hiddenStates (by
      intro index member
      rcases entries index member with zero | stored
      · have := eq_of_mem_replicate zero
        omega
      · obtain ⟨stored, listed, rfl⟩ := List.mem_map.mp stored
        obtain ⟨member, isSource⟩ := mem_filter.mp listed
        obtain ⟨i, inside, j, _, rfl⟩ := mem_ragged member
        obtain ⟨source, placed⟩ := isSome_iff_exists.mp isSource
        have within := ((stores i inside j).sourceIdx source placed).2
        have bound : rowStart (newLen self batch) i + j < rowStart (newLen self batch) batch.numReqs :=
          place_lt inside (Nat.lt_add_right self.netNumNewSlotsPerRequest within)
        rw [newLen_start] at bound
        rw [(stores i inside j).outIdx]
        omega)
  rw [Proposer.expandHiddenStates, put]
  change ((putAt self.hiddenStates mapping _).bind _).isSome = true
  rw [placed]
  rfl

/-- The lanes in bounds are the outputs. -/
theorem stored_lanes (covers : ∀ i < batch.numReqs, newLen self batch i ≤ size) :
    (ragged batch.numReqs (fun _ => size) lane).filter Lane.inBounds =
      ragged batch.numReqs (newLen self batch) lane :=
  filter_ragged _ covers fun i inside j _ => (stores i inside j).inBounds

theorem stored_outIdx : (ragged batch.numReqs (newLen self batch) lane).map Lane.outIdx =
    (List.range (rowStart (newLen self batch) batch.numReqs)).map fun (index : Nat) => (index : Int) := by
  rw [range_ragged, map_ragged, map_ragged]
  apply ragged_congr
  intro i inside j _
  rw [(stores i inside j).outIdx, newLen_start]

/-- What a field of the lanes leaves in its buffer. -/
theorem stored_field {Value : Type} (buffer : List Value) (field : Lane → Value)
    (fits : rowStart (newLen self batch) batch.numReqs ≤ buffer.length) :
    putAt buffer ((ragged batch.numReqs (newLen self batch) lane).map Lane.outIdx)
        ((ragged batch.numReqs (newLen self batch) lane).map field) =
      some (setFront buffer (ragged batch.numReqs (newLen self batch) fun i j => field (lane i j))) := by
  rw [stored_outIdx self stores, map_ragged, ← ragged_length batch.numReqs (newLen self batch) fun i j =>
    field (lane i j)]
  apply putAt_front
  rw [ragged_length]
  exact fits

end Stored

theorem expandInputs_expanded (proper : batch.Proper) {rejected : Option (List Int)}
    (wide : self.needsExtraInputSlots = true)
    (ends : (launch self batch rejected).1.queryEndLoc = counts batch.numReqs (lastPlace batch batch.queryLen))
    (fits : self.Fits (rowStart (newLen self batch) batch.numReqs))
    (positive : 0 < self.maxModelLen) (covers : self.maxModelLen ≤ batch.numBlocks * self.blockSize) :
    ∃ pass, self.expandInputs batch.target (column batch.numReqs batch.nextToken) batch.common rejected =
        some pass ∧ Expanded self batch pass rejected := by
  obtain ⟨size, lane, launched, covered, stores⟩ := expandLaunch_stores self proper wide ends
  obtain ⟨fitsIds, fitsPositions, fitsStates, fitsRejected, fitsMasked⟩ := fits
  have total : batch.target.tokenIds.length + self.netNumNewSlotsPerRequest * batch.numReqs =
      rowStart (newLen self batch) batch.numReqs := by
    rw [newLen_start, Batch.target, ragged_length, Nat.mul_comm]
  have taken {Value : Type} (buffer : List Value) (field : Nat → Nat → Value) :
      (setFront buffer (ragged batch.numReqs (newLen self batch) field)).take
          (batch.target.tokenIds.length + self.netNumNewSlotsPerRequest * batch.numReqs) =
        ragged batch.numReqs (newLen self batch) field := by
    apply take_left'
    rw [ragged_length, total]
  obtain ⟨slot, mapped, slots⟩ := computeNewSlotMapping_eq proper.nonempty
    positive covers (fun i j => (lane i j).position) fun i j => (lane i j).isRejected
  obtain ⟨newTokens, putTokens⟩ := putAt_newTokens self size stores
  have nonempty : 0 < self.hiddenStates.length := by
    have scheduled := proper.scheduled 0 proper.nonempty
    have first : rowStart (newLen self batch) 0 + 0 < rowStart (newLen self batch) batch.numReqs :=
      place_lt proper.nonempty (Nat.add_pos_left scheduled _)
    omega
  obtain ⟨hiddenStates, states⟩ : ∃ hiddenStates, (if self.passHiddenStatesToModel then
      self.expandHiddenStates batch.target (ragged batch.numReqs (fun _ => size) lane)
        (batch.target.tokenIds.length + self.netNumNewSlotsPerRequest * batch.numReqs)
        (setFront self.isMaskedTokenMask (ragged batch.numReqs (newLen self batch) fun i j =>
          (lane i j).isMasked))
      else some self.hiddenStates) = some hiddenStates := by
    split
    · exact isSome_iff_exists.mp (expandHiddenStates_some self stores _ _ fitsStates nonempty)
    · exact ⟨_, rfl⟩
  have batchSize : batch.common.seqLens.length = batch.numReqs := column_length ..
  refine ⟨⟨{ self with
      inputIds := setFront self.inputIds (ragged batch.numReqs (newLen self batch) fun i j =>
        (lane i j).tokenId)
      positions := setFront self.positions (ragged batch.numReqs (newLen self batch) fun i j =>
        (lane i j).position)
      hiddenStates := hiddenStates
      isRejectedTokenMask := setFront self.isRejectedTokenMask
        (ragged batch.numReqs (newLen self batch) fun i j => (lane i j).isRejected)
      isMaskedTokenMask := setFront self.isMaskedTokenMask
        (ragged batch.numReqs (newLen self batch) fun i j => (lane i j).isMasked) },
    batch.target.tokenIds.length + self.netNumNewSlotsPerRequest * batch.numReqs, newTokens,
    extendAllQueriesByN batch.common self.netNumNewSlotsPerRequest
      (ragged batch.numReqs (newLen self batch) slot)⟩, ?_, ?_, ?_, ?_⟩
  · rw [Proposer.expandInputs, batchSize]
    refine (congrArg (Option.bind · _) launched).trans ?_
    simp only [bind_eq_bind, bind_some, stored_lanes self stores covered,
      stored_field self stores _ _ fitsIds, stored_field self stores _ _ fitsPositions,
      stored_field self stores _ _ fitsRejected, stored_field self stores _ _ fitsMasked, putTokens, taken]
    by_cases passes : self.passHiddenStatesToModel = true
    · rw [if_pos passes] at states ⊢
      rw [states]
      exact congrArg (Option.bind · _) mapped
    · rw [if_neg passes] at states ⊢
      cases states
      exact congrArg (Option.bind · _) mapped
  · rw [Batch.target, ragged_length, Nat.mul_comm]
  · refine ⟨_, launched, ?_⟩
    rw [stored_lanes self stores covered, stored_outIdx self stores, ← total]
  · intro i inside j within index position
    have place : index = rowStart (newLen self batch) i + j := by
      rw [newLen_start]
    have stored {Value : Type} (buffer : List Value) (entry : Nat → Nat → Value) :
        (setFront buffer (ragged batch.numReqs (newLen self batch) entry))[index]? = some (entry i j) := by
      rw [place, setFront_get _ _ (by rw [ragged_length]; exact place_lt inside within)]
      exact ragged_get entry inside within
    have lane_ := stores i inside j
    constructor
    · rw [stored, lane_.isRejected within]
    · intro accepted
      have kept : ¬ batch.kept i + self.netNumNewSlotsPerRequest ≤ j := by omega
      have stays : (lane i j).position = position := by
        rw [lane_.position, if_neg kept]
      have rejects : (lane i j).isRejected = false := by
        rw [lane_.isRejected within, decide_eq_false kept]
      constructor
      · rw [stored, stays]
      · rw [place]
        refine (ragged_get slot inside within).trans ?_
        rw [slots i j rejects, stays]

/-- The runner's padded pass with extra slots. -/
theorem paddedPass_expanded (proper : batch.Proper)
    (known : ∀ i < batch.numReqs, batch.backupToken i ≠ none) (wide : self.needsExtraInputSlots = true)
    (fits : self.Fits (rowStart (newLen self batch) batch.numReqs))
    (positive : 0 < self.maxModelLen) (covers : self.maxModelLen ≤ batch.numBlocks * self.blockSize) :
    ∃ pass rejected, paddedPass self batch = some (pass, rejected) ∧
      Expanded self batch pass rejected := by
  obtain ⟨sample, rejected, _, ends, ran⟩ := paddedPass_eq self proper known
  obtain ⟨pass, expands, expanded⟩ := expandInputs_expanded self proper wide ends fits positive covers
  refine ⟨pass, rejected, ?_, expanded⟩
  rw [ran, Proposer.setInputsFirstPass, if_pos wide, expands, map_some]

end Expanded

/-- The padded and the unpadded batch draft alike: both fail when a partial prefill's next token is unknown;
otherwise every request gets its own inputs from either one, and with extra slots the padded pass stores every
output and gives each token its slot. -/
theorem padded_drafting (self : Proposer Hidden) (batch : Batch Hidden) (proper : batch.Proper)
    (fits : self.Fits (rowStart (newLen self batch) batch.numReqs)) :
    (∀ i < batch.numReqs, batch.backupToken i = none →
      paddedPass self batch = none ∧ unpaddedPass self batch = none) ∧
    ((∀ i < batch.numReqs, batch.backupToken i ≠ none) →
      (self.needsExtraInputSlots = false → ∃ padded rejected unpadded,
        paddedPass self batch = some (padded, rejected) ∧ unpaddedPass self batch = some unpadded ∧
        Prepared batch batch.queryLen padded rejected ∧ Prepared batch batch.kept unpadded none) ∧
      (self.needsExtraInputSlots = true → 0 < self.maxModelLen →
        self.maxModelLen ≤ batch.numBlocks * self.blockSize → ∃ pass rejected,
          paddedPass self batch = some (pass, rejected) ∧ Expanded self batch pass rejected)) := by
  constructor
  · intro i inside unknown
    exact passes_unknown proper self inside unknown
  · intro known
    constructor
    · intro narrow
      apply passes_prepared self proper known narrow
      exact Nat.le_trans (start_le _ _ fun i _ => Nat.le_add_right _ _) fits.1
    · intro wide
      exact paddedPass_expanded self proper known wide fits

/-- A request with a rejected draft, one without drafts and a partial prefill. -/
def mixedBatch : Batch Nat where
  vocabSize := 100
  numReqs := 3
  request i := [⟨some [1, 2, 3], 3, 3, [4], by simp⟩, ⟨some [7], 1, 1, [8], by simp⟩].getD i
    ⟨some [1, 2, 3, 4, 5, 6], 6, 0, [], by simp⟩
  queryLen i := [3, 1, 2].getD i 1
  inputId i j := ([[4, 5, 6], [8], [1, 2]].getD i []).getD j 0
  position i j := [3, 1, 0].getD i 0 + j
  slot i j := 16 * i + [3, 1, 0].getD i 0 + j
  hiddenState i j := 10 * i + j
  numBlocks := 4
  block i b := 4 * i + b
  numDraftTokens i := [2, 0, 0].getD i 0
  maxGenLen := 3
  sampled i j := ([[5, 9, -1], [11, -1, -1], [12, -1, -1]].getD i []).getD j (-1)

def smallProposer (parallelDrafting : Bool) : Proposer Nat where
  passHiddenStatesToModel := true
  parallelDrafting := parallelDrafting
  numSpeculativeTokens := 3
  parallelDraftingTokenId := 99
  parallelDraftingHiddenState := 0
  blockSize := 4
  maxModelLen := 16
  inputIds := List.replicate 16 0
  positions := List.replicate 16 0
  hiddenStates := List.replicate 16 0
  isRejectedTokenMask := List.replicate 16 false
  isMaskedTokenMask := List.replicate 16 false

theorem mixedBatch_proper : mixedBatch.Proper := by
  constructor <;> decide

theorem mixedBatch_drafting :
    (∃ padded rejected unpadded,
      paddedPass (smallProposer false) mixedBatch = some (padded, rejected) ∧
      unpaddedPass (smallProposer false) mixedBatch = some unpadded ∧
      Prepared mixedBatch mixedBatch.queryLen padded rejected ∧
      Prepared mixedBatch mixedBatch.kept unpadded none) ∧
    ∃ pass rejected, paddedPass (smallProposer true) mixedBatch = some (pass, rejected) ∧
      Expanded (smallProposer true) mixedBatch pass rejected :=
  ⟨((padded_drafting (smallProposer false) mixedBatch mixedBatch_proper (by
    unfold Proposer.Fits; decide)).2 (by decide)).1 (by decide),
    ((padded_drafting (smallProposer true) mixedBatch mixedBatch_proper (by
    unfold Proposer.Fits; decide)).2 (by decide)).2 (by decide) (by decide) (by decide)⟩

end VllmDcu.PaddedDrafting

import VllmDcu.TensorRows

/-! The autoregressive draft steps after the first pass: a kernel moves every request one position on,
looks up its slot and its sequence length, and the next step starts from what it wrote. -/
namespace VllmDcu.DraftSteps
open TensorRows List Option

/-- `PADDING_SLOT_ID` -/
def paddingSlotId : Int := -1

/-- A row of the batch between two steps: its entries of `positions`, `seq_lens` and the block table. -/
structure Row where
  position : Nat
  seqLen : Int
  blockTable : List Nat

/-- What the model is run on for one request in one step. -/
structure Inputs where
  position : Nat
  slot : Int
  seqLen : Int
deriving DecidableEq

/-- The slot of a position in a block table. -/
def slotOf (blockSize : Nat) (blockTable : List Nat) (position : Nat) : Option Int :=
  blockTable[position / blockSize]?.map fun block => (block * blockSize + position % blockSize : Nat)

/-- A thread of `eagle_step_slot_mapping_metadata_kernel` below the batch size; none when it reads past
the row of the block table. -/
def stepThread (blockSize maxModelLen : Nat) (row : Row) : Option Inputs :=
  let newPosition := row.position + 1
  let exceedsMax := newPosition ≥ maxModelLen
  let clampedPosition := if exceedsMax then 0 else newPosition
  let blockNumber := min (clampedPosition / blockSize) (row.blockTable.length - 1)
  row.blockTable[blockNumber]?.map fun blockId =>
    { position := clampedPosition
      slot := if exceedsMax then paddingSlotId
        else (blockId * blockSize + clampedPosition % blockSize : Nat)
      seqLen := min (if exceedsMax then 1 else row.seqLen + 1) maxModelLen }

/-- The outputs of the kernel are the next step's inputs. -/
def Row.next (row : Row) (inputs : Inputs) : Row :=
  { row with position := inputs.position, seqLen := inputs.seqLen }

/-- One launch: the inputs of the requests, and the slots with those of the padding threads. -/
def eagleStep (blockSize maxModelLen inputBatchSize : Nat) (rows : List Row) :
    Option (List Inputs × List Int) :=
  (rows.mapM (stepThread blockSize maxModelLen)).map fun inputs =>
    (inputs, inputs.map Inputs.slot ++ List.replicate (inputBatchSize - rows.length) paddingSlotId)

/-- The loop over `token_index`. -/
def draftLoop (blockSize maxModelLen inputBatchSize : Nat) :
    Nat → List Row → Option (List (List Inputs × List Int))
  | 0, _ => some []
  | steps + 1, rows =>
    (eagleStep blockSize maxModelLen inputBatchSize rows).bind fun inputs =>
      (draftLoop blockSize maxModelLen inputBatchSize steps
        (List.zipWith Row.next rows inputs.1)).map fun rest => inputs :: rest

/-- `num_rejected_tokens_gpu` is taken off the sequence lengths, if there is one. -/
def withoutRejected (rows : List Row) (numRejectedTokens : Option (List Int)) : List Row :=
  match numRejectedTokens with
  | none => rows
  | some rejected =>
    List.zipWith (fun (row : Row) count => { row with seqLen := row.seqLen - count }) rows rejected

/-- What `propose` runs the model on after the first pass. -/
def draftSteps (blockSize maxModelLen inputBatchSize numSpeculativeTokens : Nat) (rows : List Row)
    (numRejectedTokens : Option (List Int)) : Option (List (List Inputs × List Int)) :=
  draftLoop blockSize maxModelLen inputBatchSize (numSpeculativeTokens - 1)
    (if numSpeculativeTokens > 1 then withoutRejected rows numRejectedTokens else rows)

/-! One request. -/

/-- The steps of one request, as the loop makes them. -/
def rowSteps (blockSize maxModelLen : Nat) : Nat → Row → Option (List Inputs)
  | 0, _ => some []
  | steps + 1, row =>
    (stepThread blockSize maxModelLen row).bind fun inputs =>
      (rowSteps blockSize maxModelLen steps (row.next inputs)).map (inputs :: ·)

/-- Step `t` is at `start + t` in front of the limit, and writes nothing behind it. -/
structure OnlyNew (blockSize maxModelLen start : Nat) (blockTable : List Nat) (steps : List Inputs) :
    Prop where
  placed : ∀ (t : Nat) inputs, steps[t]? = some inputs → start + (t + 1) < maxModelLen →
    inputs.position = start + (t + 1) ∧ slotOf blockSize blockTable (start + (t + 1)) = some inputs.slot ∧
      inputs.seqLen = start + (t + 1) + 1
  padded : ∀ (t : Nat) inputs, steps[t]? = some inputs → maxModelLen ≤ start + (t + 1) →
    inputs.slot = paddingSlotId
  unwritten : ∀ inputs ∈ steps, ∀ position ≤ start,
    slotOf blockSize blockTable position ≠ some inputs.slot

section Request
variable {blockSize maxModelLen : Nat}

/-- The table has a block for every position up to `last`, and no block twice. -/
structure Covers (blockSize last : Nat) (blockTable : List Nat) : Prop where
  blocks : last / blockSize < blockTable.length
  distinct : ∀ i ≤ last / blockSize, ∀ j ≤ last / blockSize, blockTable[i]? = blockTable[j]? → i = j

/-- Different positions have different slots. -/
theorem Covers.slotOf_injective {last : Nat} {blockTable : List Nat}
    (covers : Covers blockSize last blockTable) (positive : 0 < blockSize) {first second : Nat}
    (firstInside : first ≤ last) (secondInside : second ≤ last)
    (same : slotOf blockSize blockTable first = slotOf blockSize blockTable second) :
    first = second := by
  have firstBlock := Nat.div_le_div_right (c := blockSize) firstInside
  have secondBlock := Nat.div_le_div_right (c := blockSize) secondInside
  have blocks := covers.blocks
  obtain ⟨block, found⟩ : ∃ block, blockTable[first / blockSize]? = some block :=
    ⟨_, getElem?_eq_getElem (by omega)⟩
  obtain ⟨block', found'⟩ : ∃ block, blockTable[second / blockSize]? = some block :=
    ⟨_, getElem?_eq_getElem (by omega)⟩
  rw [slotOf, slotOf, found, found'] at same
  have equal : block * blockSize + first % blockSize = block' * blockSize + second % blockSize :=
    Int.ofNat_inj.mp (some.inj same)
  have offsets : first % blockSize = second % blockSize := by
    have residues := congrArg (· % blockSize) equal
    simpa only [Nat.mul_add_mod', Nat.mod_mod] using residues
  have blocksEqual : block = block' := Nat.eq_of_mul_eq_mul_right positive (by omega)
  have index := covers.distinct _ firstBlock _ secondBlock (found.trans (blocksEqual ▸ found'.symm))
  rw [← Nat.div_add_mod first blockSize, ← Nat.div_add_mod second blockSize, index, offsets]

variable (row : Row)

/-- A step in front of the limit. -/
theorem stepThread_inside (bound : (row.position + 1) / blockSize < row.blockTable.length)
    (inside : row.position + 1 < maxModelLen) (current : row.seqLen = row.position + 1) :
    ∃ slot, slotOf blockSize row.blockTable (row.position + 1) = some slot ∧ 0 ≤ slot ∧
      stepThread blockSize maxModelLen row =
        some ⟨row.position + 1, slot, row.position + 1 + 1⟩ := by
  have found := getElem?_eq_getElem bound
  refine ⟨(row.blockTable[(row.position + 1) / blockSize] * blockSize +
    (row.position + 1) % blockSize : Nat), ?_, Int.natCast_nonneg _, ?_⟩
  · rw [slotOf, found, map_some]
  · unfold stepThread
    have below : ¬ row.position + 1 ≥ maxModelLen := by omega
    simp only [if_neg below]
    rw [Nat.min_eq_left (by omega), found, map_some]
    congr 2
    omega

/-- A step at the limit or behind it: the next one starts from position 0. -/
theorem stepThread_beyond (nonempty : 0 < row.blockTable.length)
    (beyond : maxModelLen ≤ row.position + 1) :
    stepThread blockSize maxModelLen row = some ⟨0, paddingSlotId, min 1 maxModelLen⟩ := by
  unfold stepThread
  simp only [if_pos (show row.position + 1 ≥ maxModelLen from beyond)]
  rw [Nat.zero_div, Nat.zero_min, getElem?_eq_getElem nonempty, map_some]

variable (steps : Nat)

/-- The index into the block table is clamped, so no step reads past it. -/
theorem rowSteps_total (row : Row) (nonempty : 0 < row.blockTable.length) :
    ∃ made, rowSteps blockSize maxModelLen steps row = some made ∧ made.length = steps := by
  induction steps generalizing row with
  | zero => exact ⟨[], rfl, rfl⟩
  | succ steps ih =>
    obtain ⟨inputs, ran⟩ : ∃ inputs, stepThread blockSize maxModelLen row = some inputs := by
      unfold stepThread
      simp only
      rw [getElem?_eq_getElem (by omega)]
      exact ⟨_, rfl⟩
    obtain ⟨rest, made, length⟩ := ih (row.next inputs) nonempty
    refine ⟨inputs :: rest, ?_, ?_⟩
    · rw [rowSteps, ran, bind_some, made, map_some]
    · rw [length_cons, length]

/-- The next position has a block when the last one in reach has. -/
theorem block_lt
    (bound : min (row.position + (steps + 1)) (maxModelLen - 1) / blockSize < row.blockTable.length)
    (inside : row.position + 1 < maxModelLen) :
    (row.position + 1) / blockSize < row.blockTable.length := by
  have reach : row.position + 1 ≤ min (row.position + (steps + 1)) (maxModelLen - 1) := by omega
  exact Nat.lt_of_le_of_lt (Nat.div_le_div_right reach) bound

/-- In front of the limit, and with one step at it. -/
theorem rowSteps_within (row : Row) (made : List Inputs)
    (bound : min (row.position + steps) (maxModelLen - 1) / blockSize < row.blockTable.length)
    (inside : row.position < maxModelLen) (within : row.position + steps ≤ maxModelLen)
    (current : row.seqLen = row.position + 1)
    (ran : rowSteps blockSize maxModelLen steps row = some made) (t : Nat) (inputs : Inputs)
    (step : made[t]? = some inputs) :
    (row.position + (t + 1) < maxModelLen → inputs.position = row.position + (t + 1) ∧
      slotOf blockSize row.blockTable (row.position + (t + 1)) = some inputs.slot ∧
      inputs.seqLen = (row.position + (t + 1) + 1 : Nat)) ∧
    (maxModelLen ≤ row.position + (t + 1) → inputs.slot = paddingSlotId) := by
  induction steps generalizing row made t with
  | zero =>
    cases ran
    cases step
  | succ steps ih =>
    rw [rowSteps] at ran
    by_cases last : row.position + 1 = maxModelLen
    · -- the step at the limit is the last one
      have none : steps = 0 := by omega
      subst none
      rw [stepThread_beyond row (Nat.zero_lt_of_lt bound) (by omega)] at ran
      cases ran
      cases t with
      | zero =>
        cases step
        exact ⟨fun below => absurd below (by omega), fun _ => rfl⟩
      | succ t => cases step
    · obtain ⟨slot, there, _, first⟩ := @stepThread_inside blockSize maxModelLen row
        (block_lt row steps bound (by omega)) (by omega) current
      rw [first] at ran
      obtain ⟨rest, ranRest, rfl⟩ := map_eq_some_iff.mp ran
      cases t with
      | zero =>
        cases step
        exact ⟨fun _ => ⟨rfl, there, rfl⟩, fun beyond => absurd beyond (by omega)⟩
      | succ t =>
        have later := ih (row.next ⟨row.position + 1, slot, row.position + 1 + 1⟩) rest
          (by simp only [Row.next]; rwa [Nat.add_assoc, Nat.add_comm 1])
          (by simp only [Row.next]; omega) (by simp only [Row.next]; omega) (by simp only [Row.next]; omega)
          ranRest t step
        simp only [Row.next] at later
        rw [show row.position + 1 + (t + 1) = row.position + (t + 1 + 1) by omega] at later
        exact later

/-- Two steps behind the limit are one too many: the second one is at position 1 again. -/
theorem rowSteps_beyond (row : Row) (made : List Inputs)
    (bound : min (row.position + steps) (maxModelLen - 1) / blockSize < row.blockTable.length)
    (inside : row.position < maxModelLen) (beyond : maxModelLen < row.position + steps)
    (long : 2 ≤ maxModelLen) (current : row.seqLen = row.position + 1)
    (ran : rowSteps blockSize maxModelLen steps row = some made) :
    ∃ (t : Nat) (inputs : Inputs), made[t]? = some inputs ∧ maxModelLen ≤ row.position + (t + 1) ∧
      inputs.slot ≠ paddingSlotId := by
  induction steps generalizing row made with
  | zero => omega
  | succ steps ih =>
    rw [rowSteps] at ran
    by_cases last : row.position + 1 = maxModelLen
    · rw [stepThread_beyond row (Nat.zero_lt_of_lt bound) (by omega), bind_some] at ran
      obtain ⟨rest, ranRest, rfl⟩ := map_eq_some_iff.mp ran
      cases steps with
      | zero => omega
      | succ steps =>
        -- the row that was clamped to position 0
        obtain ⟨slot, _, positive, second⟩ := @stepThread_inside blockSize maxModelLen
          (row.next ⟨0, paddingSlotId, min 1 maxModelLen⟩) (by
            have reach : 0 + 1 ≤ min (row.position + (steps + 1 + 1)) (maxModelLen - 1) := by omega
            exact Nat.lt_of_le_of_lt (Nat.div_le_div_right reach) bound)
          (by simp only [Row.next]; omega) (by simp only [Row.next]; omega)
        rw [rowSteps, second] at ranRest
        obtain ⟨others, _, rfl⟩ := map_eq_some_iff.mp ranRest
        refine ⟨1, ⟨0 + 1, slot, 0 + 1 + 1⟩, rfl, by omega, ?_⟩
        intro padding
        simp only [paddingSlotId] at padding
        omega
    · obtain ⟨slot, _, _, first⟩ := @stepThread_inside blockSize maxModelLen row
        (block_lt row steps bound (by omega)) (by omega) current
      rw [first] at ran
      obtain ⟨rest, ranRest, rfl⟩ := map_eq_some_iff.mp ran
      obtain ⟨t, inputs, step, later, written⟩ :=
        ih (row.next ⟨row.position + 1, slot, row.position + 1 + 1⟩) rest
          (by simp only [Row.next]; rwa [Nat.add_assoc, Nat.add_comm 1])
          (by simp only [Row.next]; omega) (by simp only [Row.next]; omega)
          (by simp only [Row.next]; omega) ranRest
      refine ⟨t + 1, inputs, step, ?_, written⟩
      simp only [Row.next] at later
      omega

/-- A model of one position: every step is past the limit. -/
theorem rowSteps_single (row : Row) (made : List Inputs) (nonempty : 0 < row.blockTable.length)
    (single : maxModelLen ≤ 1) (ran : rowSteps blockSize maxModelLen steps row = some made) :
    ∀ inputs ∈ made, inputs.slot = paddingSlotId := by
  induction steps generalizing row made with
  | zero =>
    cases ran
    exact nofun
  | succ steps ih =>
    rw [rowSteps, stepThread_beyond row nonempty (by omega)] at ran
    obtain ⟨rest, ranRest, rfl⟩ := map_eq_some_iff.mp ran
    intro inputs member
    cases member with
    | head => rfl
    | tail _ member =>
      exact ih (row.next ⟨0, paddingSlotId, min 1 maxModelLen⟩) rest nonempty ranRest inputs member

theorem slotOf_nonneg {blockTable : List Nat} {position : Nat} {slot : Int}
    (found : slotOf blockSize blockTable position = some slot) : 0 ≤ slot := by
  obtain ⟨block, _, rfl⟩ := map_eq_some_iff.mp found
  exact Int.natCast_nonneg _

/-- The steps of a request are at new positions exactly when at most one of them is past the limit. -/
theorem rowSteps_onlyNew_iff (row : Row) (positive : 0 < blockSize)
    (covers : Covers blockSize (min (row.position + steps) (maxModelLen - 1)) row.blockTable)
    (inside : row.position < maxModelLen) (current : row.seqLen = row.position + 1) :
    ∃ made, rowSteps blockSize maxModelLen steps row = some made ∧ made.length = steps ∧
      (OnlyNew blockSize maxModelLen row.position row.blockTable made ↔
        row.position + steps ≤ maxModelLen ∨ maxModelLen ≤ 1) := by
  have bound := covers.blocks
  obtain ⟨made, ran, length⟩ := @rowSteps_total blockSize maxModelLen steps row (Nat.zero_lt_of_lt bound)
  refine ⟨made, ran, length, ?_⟩
  constructor
  · intro onlyNew
    by_contra fails
    obtain ⟨t, inputs, step, beyond, written⟩ :=
      rowSteps_beyond steps row made bound inside (by omega) (by omega) current ran
    exact written (onlyNew.padded t inputs step beyond)
  · intro fits
    have each : ∀ (t : Nat) inputs, made[t]? = some inputs →
        (row.position + (t + 1) < maxModelLen → inputs.position = row.position + (t + 1) ∧
          slotOf blockSize row.blockTable (row.position + (t + 1)) = some inputs.slot ∧
          inputs.seqLen = (row.position + (t + 1) + 1 : Nat)) ∧
        (maxModelLen ≤ row.position + (t + 1) → inputs.slot = paddingSlotId) := by
      intro t inputs step
      rcases fits with within | single
      · exact rowSteps_within steps row made bound inside within current ran t inputs step
      · have padding := rowSteps_single steps row made (Nat.zero_lt_of_lt bound) single ran
        exact ⟨fun below => absurd below (by omega), fun _ => padding inputs (mem_of_getElem? step)⟩
    constructor
    · intro t inputs step below
      obtain ⟨position, slot, seqLen⟩ := (each t inputs step).1 below
      refine ⟨position, slot, ?_⟩
      omega
    · intro t inputs step beyond
      exact (each t inputs step).2 beyond
    · intro inputs member position before same
      obtain ⟨t, step⟩ := mem_iff_getElem?.mp member
      obtain ⟨inRange, _⟩ := List.getElem?_eq_some_iff.mp step
      by_cases below : row.position + (t + 1) < maxModelLen
      · have slot := ((each t inputs step).1 below).2.1
        have equal := covers.slotOf_injective positive (by omega) (by omega) (same.trans slot.symm)
        omega
      · have padding := (each t inputs step).2 (by omega)
        have := slotOf_nonneg same
        rw [padding, paddingSlotId] at this
        omega

end Request

/-! The batch. -/

section Batch
variable (blockSize maxModelLen inputBatchSize : Nat)

variable (steps : Nat)

/-- The loop over the batch makes the steps of each request. -/
theorem draftLoop_row (rows : List Row) (made : List (List Inputs × List Int))
    (ran : draftLoop blockSize maxModelLen inputBatchSize steps rows = some made) (i : Nat)
    (row : Row) (found : rows[i]? = some row) :
    ∃ own, rowSteps blockSize maxModelLen steps row = some own ∧ own.length = made.length ∧
      ∀ (t : Nat) inputs, made[t]? = some inputs → inputs.1[i]? = own[t]? ∧ inputs.2[i]? =
        own[t]?.map Inputs.slot := by
  induction steps generalizing rows made row with
  | zero =>
    cases ran
    exact ⟨[], rfl, rfl, nofun⟩
  | succ steps ih =>
    obtain ⟨inputs, stepped, ran⟩ := bind_eq_some_iff.mp ran
    obtain ⟨rest, ranRest, rfl⟩ := map_eq_some_iff.mp ran
    obtain ⟨threads, mapped, rfl⟩ := map_eq_some_iff.mp stepped
    obtain ⟨length, read⟩ := mapM_read mapped
    obtain ⟨bound, _⟩ := List.getElem?_eq_some_iff.mp found
    obtain ⟨first, there⟩ : ∃ first, threads[i]? = some first := ⟨_, getElem?_eq_getElem (by omega)⟩
    have thread := read i row found
    rw [there] at thread
    obtain ⟨own, ranOwn, ownLength, each⟩ := ih (zipWith Row.next rows threads) rest ranRest
      (row.next first) (by rw [getElem?_zipWith, found, there])
    refine ⟨first :: own, ?_, ?_, ?_⟩
    · rw [rowSteps, ← thread, bind_some, ranOwn, map_some]
    · rw [length_cons, length_cons, ownLength]
    · intro t inputs step
      cases t with
      | zero =>
        cases step
        refine ⟨there, ?_⟩
        rw [getElem?_append_left (by rw [length_map]; omega), getElem?_map, there]
        rfl
      | succ t => exact each t inputs step

/-- No thread reads past its row of the block table. -/
theorem draftLoop_total (rows : List Row) (nonempty : ∀ row ∈ rows, 0 < row.blockTable.length) :
    ∃ made, draftLoop blockSize maxModelLen inputBatchSize steps rows = some made ∧
      made.length = steps := by
  induction steps generalizing rows with
  | zero => exact ⟨[], rfl, rfl⟩
  | succ steps ih =>
    obtain ⟨threads, mapped, _, _⟩ := mapM_total rows (stepThread blockSize maxModelLen) (by
      intro row member
      have some_ := nonempty row member
      unfold stepThread
      simp only
      rw [getElem?_eq_getElem (by omega)]
      exact ⟨_, rfl⟩)
    obtain ⟨rest, ran, length⟩ := ih (zipWith Row.next rows threads) (by
      intro row member
      obtain ⟨i, found⟩ := mem_iff_getElem?.mp member
      rw [getElem?_zipWith] at found
      split at found
      case h_1 before inputs there _ =>
        cases found
        exact nonempty before (mem_of_getElem? there)
      case h_2 => cases found)
    refine ⟨(threads, threads.map Inputs.slot ++
      replicate (inputBatchSize - rows.length) paddingSlotId) :: rest, ?_, ?_⟩
    · rw [draftLoop, eagleStep, mapped, map_some, bind_some]
      rw [ran, map_some]
    · rw [length_cons, length]

end Batch

/-- The rejected tokens of a request. -/
def rejectedOf (numRejectedTokens : Option (List Int)) (i : Nat) : Int :=
  match numRejectedTokens with
  | none => 0
  | some rejected => rejected[i]?.getD 0

/-- A request as the draft steps are entered: sampled from its last token that is not rejected. -/
structure Entered (blockSize maxModelLen numSpeculativeTokens : Nat)
    (numRejectedTokens : Option (List Int)) (i : Nat) (row : Row) : Prop where
  inside : row.position < maxModelLen
  current : row.seqLen - rejectedOf numRejectedTokens i = row.position + 1
  covers : Covers blockSize (min (row.position + (numSpeculativeTokens - 1)) (maxModelLen - 1))
    row.blockTable

theorem withoutRejected_row (rows : List Row) (numRejectedTokens : Option (List Int))
    (given : ∀ rejected, numRejectedTokens = some rejected → rejected.length = rows.length) (i : Nat)
    (row : Row) (found : rows[i]? = some row) :
    (withoutRejected rows numRejectedTokens)[i]? =
      some { row with seqLen := row.seqLen - rejectedOf numRejectedTokens i } := by
  obtain ⟨bound, _⟩ := List.getElem?_eq_some_iff.mp found
  cases numRejectedTokens with
  | none =>
    simp only [withoutRejected, rejectedOf, Int.sub_zero]
    exact found
  | some rejected =>
    have length := given rejected rfl
    have count := getElem?_eq_getElem (by omega : i < rejected.length)
    simp only [withoutRejected, rejectedOf]
    rw [getElem?_zipWith, found, count, getD_some]

/-- For every batch, each request's draft steps are at new positions exactly when at most one of them is
past the limit of the model. -/
theorem draftSteps_onlyNew_iff (blockSize maxModelLen inputBatchSize numSpeculativeTokens : Nat)
    (rows : List Row) (numRejectedTokens : Option (List Int)) (positive : 0 < blockSize)
    (given : ∀ rejected, numRejectedTokens = some rejected → rejected.length = rows.length)
    (entered : ∀ (i : Nat) row, rows[i]? = some row →
      Entered blockSize maxModelLen numSpeculativeTokens numRejectedTokens i row) :
    ∃ made, draftSteps blockSize maxModelLen inputBatchSize numSpeculativeTokens rows
        numRejectedTokens = some made ∧ made.length = numSpeculativeTokens - 1 ∧
      ∀ (i : Nat) row, rows[i]? = some row → ∃ own : List Inputs, own.length = made.length ∧
        (∀ (t : Nat) inputs, made[t]? = some inputs →
          inputs.1[i]? = own[t]? ∧ inputs.2[i]? = own[t]?.map Inputs.slot) ∧
        (OnlyNew blockSize maxModelLen row.position row.blockTable own ↔
          row.position + (numSpeculativeTokens - 1) ≤ maxModelLen ∨ maxModelLen ≤ 1) := by
  unfold draftSteps
  by_cases several : numSpeculativeTokens > 1
  · rw [if_pos several]
    have read := withoutRejected_row rows numRejectedTokens given
    have nonempty : ∀ row ∈ withoutRejected rows numRejectedTokens, 0 < row.blockTable.length := by
      intro row member
      obtain ⟨i, found⟩ := mem_iff_getElem?.mp member
      cases before : rows[i]? with
      | none =>
        have outside := List.getElem?_eq_none_iff.mp before
        obtain ⟨bound, _⟩ := List.getElem?_eq_some_iff.mp found
        cases numRejectedTokens with
        | none =>
          simp only [withoutRejected] at bound
          omega
        | some rejected =>
          simp only [withoutRejected, length_zipWith] at bound
          omega
      | some own =>
        rw [read i own before] at found
        cases found
        exact Nat.zero_lt_of_lt (entered i own before).covers.blocks
    obtain ⟨made, ran, length⟩ := draftLoop_total blockSize maxModelLen inputBatchSize
      (numSpeculativeTokens - 1) _ nonempty
    refine ⟨made, ran, length, ?_⟩
    intro i row found
    have start := entered i row found
    obtain ⟨own, ranOwn, ownLength, each⟩ := draftLoop_row blockSize maxModelLen inputBatchSize
      (numSpeculativeTokens - 1) _ made ran i _ (read i row found)
    obtain ⟨own', ranOwn', _, onlyNew⟩ := rowSteps_onlyNew_iff (numSpeculativeTokens - 1)
      { row with seqLen := row.seqLen - rejectedOf numRejectedTokens i } positive start.covers
      start.inside start.current
    rw [ranOwn] at ranOwn'
    cases ranOwn'
    exact ⟨own, ownLength, each, onlyNew⟩
  · rw [show numSpeculativeTokens - 1 = 0 by omega]
    refine ⟨[], rfl, rfl, ?_⟩
    intro i row found
    have inside := (entered i row found).inside
    refine ⟨[], rfl, nofun, ?_⟩
    constructor
    · exact fun _ => Or.inl (by omega)
    · exact fun _ => ⟨nofun, nofun, nofun⟩

/-- Two requests with blocks of two slots in a model of eight positions. -/
def smallBatch : List Row :=
  [{ position := 2, seqLen := 4, blockTable := [5, 3, 9, 4] },
    { position := 5, seqLen := 6, blockTable := [1, 2, 6, 7] }]

theorem smallBatch_onlyNew_iff : ∃ made, draftSteps 2 8 3 4 smallBatch (some [1, 0]) = some made ∧
    made.length = 4 - 1 ∧
    ∀ (i : Nat) row, smallBatch[i]? = some row → ∃ own : List Inputs, own.length = made.length ∧
      (∀ (t : Nat) inputs, made[t]? = some inputs →
        inputs.1[i]? = own[t]? ∧ inputs.2[i]? = own[t]?.map Inputs.slot) ∧
      (OnlyNew 2 8 row.position row.blockTable own ↔ row.position + (4 - 1) ≤ 8 ∨ 8 ≤ 1) :=
  draftSteps_onlyNew_iff 2 8 3 4 smallBatch (some [1, 0]) (by decide)
    (by
      intro rejected given
      cases given
      rfl)
    (by
      intro i row found
      match i with
      | 0 =>
        cases found
        exact ⟨by decide, by decide, ⟨by decide, by decide⟩⟩
      | 1 =>
        cases found
        exact ⟨by decide, by decide, ⟨by decide, by decide⟩⟩
      | i + 2 => cases found)

/-- A request at position 6 of 8 with four drafts: its third step writes the slot of position 1. -/
theorem lateRow_notOnlyNew :
    ∃ made own, draftSteps 2 8 1 4 [⟨6, 7, [1, 2, 6, 7]⟩] none = some made ∧
      made.map Prod.fst = own.map (fun inputs => [inputs]) ∧
      own.map Inputs.slot = [15, -1, 3] ∧ slotOf 2 [1, 2, 6, 7] 1 = some 3 ∧
      ¬ OnlyNew 2 8 6 [1, 2, 6, 7] own := by
  refine ⟨_, [⟨7, 15, 8⟩, ⟨0, -1, 1⟩, ⟨1, 3, 2⟩], rfl, rfl, rfl, rfl, ?_⟩
  intro onlyNew
  exact onlyNew.unwritten ⟨1, 3, 2⟩ (by decide) 1 (by decide) rfl

end VllmDcu.DraftSteps

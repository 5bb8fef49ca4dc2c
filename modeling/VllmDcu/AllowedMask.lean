import VllmDcu.BatchRun

/-! The mask of allowed tokens. A row stands for the request at its index, or is what
the request that was moved away from there left behind. Rows are exchanged as views. -/
namespace VllmDcu.AllowedMask
open Requests (Token ReqId)
open LogitsProcessors PersistentBatch Slots BatchSlots BatchTracks BatchMoves BatchRun
open List Option Function
variable {Num : Type}

/-- The tokens a request must not sample. A request without allowed tokens may sample them all. -/
def forbids (request : CachedRequestState Num) (token : Nat) : Bool :=
  match orNone request.samplingParams.allowedTokenIds with
  | none => false
  | some allowed => decide (token ∉ allowed)

/-- The batch shows the requests in their order, and a mask handed to the sampler restricts
each of them by its own allowed tokens. -/
structure Isolated (batch : InputBatch Num) (requests : List (LiveRequest Num)) : Prop where
  index : batch.reqIds = requests.map fun live => some live.reqId
  rows : ∀ rows, batch.samplingMetadata.allowedTokenIdsMask = some rows →
    ∀ (i : Nat) (live : LiveRequest Num), requests[i]? = some live →
      rows[i]? = some ((List.range batch.config.vocabSize).map (forbids live.request))

/-! The condition. -/

def Alike (vocab : Nat) (first second : CachedRequestState Num) : Prop :=
  ∀ token < vocab, forbids first token = forbids second token

/-- Only requests with the same allowed tokens are exchanged. -/
def SwapsAlike (vocab : Nat) : List (LiveRequest Num) → List (Nat × Nat) → Prop
  | _, [] => True
  | requests, (i, j) :: rest =>
    (∀ first second, requests[i]? = some first → requests[j]? = some second →
      Alike vocab first.request second.request) ∧
    SwapsAlike vocab (exchange requests i j) rest

/-- A request without allowed tokens that comes to the end of the table finds a clear row. -/
def AddsClear (vocab : Nat) (left : Nat → Nat → Bool) (heap : Heap) :
    Table Num → List (AddOp Num) → Prop
  | _, [] => True
  | slots, op :: rest =>
    (match op with
      | .addRequest request => lowestFree slots = none →
          orNone request.samplingParams.allowedTokenIds = none →
          ∀ token < vocab, left slots.length token = false
      | .updateReqSpecTokenIds _ _ => True) ∧
    AddsClear vocab left heap (BatchSlots.applyAdd heap slots op) rest

/-- The rows beyond the batch after a step. Compaction leaves the row of a request it moves as
it was, a removal clears the row. -/
def leftRows (left : Nat → Nat → Bool) (settled : Table Num) (i : Nat) : Nat → Bool :=
  match settled[i]? with
  | some (some live) => forbids live.request
  | some none => fun _ => false
  | none => left i

def StepClear (vocab : Nat) (left : Nat → Nat → Bool) (requests : List (LiveRequest Num))
    (step : WorkerStep Num) : Prop :=
  AddsClear vocab left step.heap (step.removed.foldl vacate (requests.map some)) step.added ∧
    SwapsAlike vocab (closeGaps (settle requests step)) step.swaps

def RunClear (vocab : Nat) : (Nat → Nat → Bool) → List (LiveRequest Num) →
    List (WorkerStep Num) → Prop
  | _, _, [] => True
  | left, requests, step :: rest =>
    StepClear vocab left requests step ∧
      RunClear vocab (leftRows left (settle requests step)) (stepRequests requests step) rest

/-! Rows of the mask in host memory. -/

/-- No mask is as good as a mask that restricts nobody. -/
def hostMask (mask : Option (Nat → Nat → Bool)) : Nat → Nat → Bool := mask.getD fun _ _ => false

/-- Each row stands for who sits there, and `left` tells the rows of the free indices. -/
def MaskRows (vocab : Nat) (left mask : Nat → Nat → Bool) (slots : Table Num) : Prop :=
  ∀ i, ∀ token < vocab, mask i token =
    (seat slots i).elim (left i) (fun live => forbids live.request) token

variable (mask : Option (Nat → Nat → Bool))

theorem hostMask_cleared (i : Nat) :
    hostMask (mask.map fun mask => Function.update mask i fun _ => false) =
      Function.update (hostMask mask) i fun _ => false := by
  cases mask with
  | none => exact (update_eq_self i fun _ _ => false).symm
  | some mask => rfl

theorem hostMask_copied (source target : Nat) :
    hostMask (mask.map fun mask => Function.update mask target (mask source)) =
      Function.update (hostMask mask) target (hostMask mask source) := by
  cases mask with
  | none => exact (update_eq_self target fun _ _ => false).symm
  | some mask => rfl

/-- Both rows end up as the second one was. -/
theorem swapViews_apply (mask : Nat → Nat → Bool) (i j k : Nat) :
    InputBatch.swapViews mask i j k = if k = i ∨ k = j then mask j else mask k := by
  unfold InputBatch.swapViews
  simp only [update_apply]
  by_cases atJ : k = j
  · simp [atJ]
  · by_cases atI : k = i
    · simp [atI]
    · simp [atI, atJ]

theorem hostMask_swapped (i j k : Nat) :
    hostMask (mask.map fun mask => InputBatch.swapViews mask i j) k =
      if k = i ∨ k = j then hostMask mask j else hostMask mask k := by
  cases mask with
  | none => exact (ite_self _).symm
  | some mask => exact swapViews_apply mask i j k

theorem hostMask_added (batch : InputBatch Num) (request : CachedRequestState Num) (index : Nat) :
    hostMask (cpuMaskAfter batch request index) =
      if orNone request.samplingParams.allowedTokenIds = none then
        hostMask batch.allowedTokenIdsMaskCpu
      else Function.update (hostMask batch.allowedTokenIdsMaskCpu) index (forbids request) := by
  unfold cpuMaskAfter
  cases asked : orNone request.samplingParams.allowedTokenIds with
  | none => rw [if_pos rfl]
  | some allowed =>
    have row : forbids request = InputBatch.allowedRow allowed := by
      unfold forbids
      rw [asked]
      rfl
    rw [row]
    rfl

namespace MaskRows
variable {vocab : Nat} {left mask : Nat → Nat → Bool} {slots : Table Num}

section
variable (shown : MaskRows vocab left mask slots)
include shown

theorem congr (slots' : Table Num)
    (seats : ∀ i, seat slots' i = seat slots i) : MaskRows vocab left mask slots' := by
  intro i token inside
  rw [seats]
  exact shown i token inside

theorem vacate (reqId : ReqId) (i : Nat) (gone : seat (BatchSlots.vacate slots reqId) i = none)
    (others : ∀ k, k ≠ i → seat (BatchSlots.vacate slots reqId) k = seat slots k)
    (clear : ∀ token, left i token = false) :
    MaskRows vocab left (Function.update mask i fun _ => false)
      (BatchSlots.vacate slots reqId) := by
  intro k token inside
  by_cases here : k = i
  · subst here
    rw [update_self, gone]
    exact (clear token).symm
  · rw [update_of_ne here, others k here]
    exact shown k token inside

theorem place (newcomer : LiveRequest Num)
    (clear : orNone newcomer.request.samplingParams.allowedTokenIds = none →
      ∀ token < vocab, left (newSlot slots) token = false) :
    MaskRows vocab left
      (if orNone newcomer.request.samplingParams.allowedTokenIds = none then mask
        else Function.update mask (newSlot slots) (forbids newcomer.request))
      (Slots.place slots newcomer) := by
  intro k token inside
  have before := shown k token inside
  rw [seat_newcomer]
  by_cases unrestricted : orNone newcomer.request.samplingParams.allowedTokenIds = none
  · rw [if_pos unrestricted]
    by_cases here : k = newSlot slots
    · subst here
      rw [newSlot_free, elim_none, clear unrestricted token inside] at before
      rw [if_pos rfl, before, elim_some, forbids, unrestricted]
    · rw [if_neg here]
      exact before
  · rw [if_neg unrestricted]
    by_cases here : k = newSlot slots
    · subst here
      rw [if_pos rfl, update_self]
      rfl
    · rw [if_neg here, update_of_ne here]
      exact before

theorem redraft (reqId : ReqId) (specTokenIds : List Token) :
    MaskRows vocab left mask (slots.map (Option.map (LiveRequest.redraft reqId specTokenIds))) := by
  intro k token inside
  rw [seat_map, shown k token inside]
  cases seat slots k with
  | none => rfl
  | some live =>
    show forbids live.request token = forbids (live.redraft reqId specTokenIds).request token
    rw [redraft_request]

/-- The row at `last` stays, so it must be what is left there. -/
theorem move {last empty : Nat} {live : LiveRequest Num}
    (movable : Movable slots last empty live) (stays : left last = forbids live.request) :
    MaskRows vocab left (Function.update mask empty (mask last)) (relocate slots last empty) := by
  obtain ⟨-, -, different, -⟩ := movable.bounds
  intro k token inside
  rw [seat_moved movable]
  have source := shown last token inside
  rw [movable.sits] at source
  by_cases atLast : k = last
  · subst atLast
    rw [if_pos rfl, update_of_ne different, stays]
    exact source
  · rw [if_neg atLast]
    by_cases atEmpty : k = empty
    · subst atEmpty
      rw [if_pos rfl, update_self]
      exact source
    · rw [if_neg atEmpty, update_of_ne atEmpty]
      exact shown k token inside

end

theorem swap {requests : List (LiveRequest Num)} {mask' : Nat → Nat → Bool}
    (shown : MaskRows vocab left mask (requests.map some)) (i j : Nat)
    (boundI : i < requests.length) (boundJ : j < requests.length)
    (alike : ∀ first second, requests[i]? = some first → requests[j]? = some second →
      Alike vocab first.request second.request)
    (swapped : ∀ k, mask' k = if k = i ∨ k = j then mask j else mask k) :
    MaskRows vocab left mask' ((exchange requests i j).map some) := by
  have here := getElem?_eq_getElem boundI
  have there := getElem?_eq_getElem boundJ
  have same := alike _ _ here there
  intro k token inside
  rw [seat_exchange boundI boundJ, swapped k]
  have second := shown j token inside
  rw [seat_map_some, there] at second
  unfold exchanged
  by_cases atJ : k = j
  · rw [if_pos (Or.inr atJ), if_pos atJ, here, second]
    exact (same token inside).symm
  · by_cases atI : k = i
    · rw [if_pos (Or.inl atI), if_neg atJ, if_pos atI, there]
      exact second
    · rw [if_neg (by simp [atI, atJ]), if_neg atJ, if_neg atI, ← seat_map_some]
      exact shown k token inside

end MaskRows

/-! Inside a step. -/

/-- What the phases of a step keep. As long as nothing is logged the requests are those from
before the step, and the sampler still has the mask from before. -/
structure Stage (before : InputBatch Num) (requests : List (LiveRequest Num))
    (left : Nat → Nat → Bool) (batch : InputBatch Num) (slots : Table Num) : Prop where
  config : batch.config = before.config
  metadata : batch.samplingMetadata = before.samplingMetadata
  rows : MaskRows before.config.vocabSize left (hostMask batch.allowedTokenIdsMaskCpu) slots
  quiet : batch.batchUpdateBuilder.added = [] → batch.batchUpdateBuilder.moved = [] →
    ∀ i live, seat slots i = some live →
      ∃ old, requests[i]? = some old ∧ old.request = live.request

/-- During removals and additions a free slot of the old table has a clear row. -/
def clearRows (size : Nat) (left : Nat → Nat → Bool) (i : Nat) : Nat → Bool :=
  if i < size then fun _ => false else left i

theorem clearRows_below {size : Nat} {left : Nat → Nat → Bool} {i token : Nat}
    (inside : i < size) : clearRows size left i token = false := by
  unfold clearRows
  rw [if_pos inside]

theorem clearRows_above {size : Nat} {left : Nat → Nat → Bool} {i : Nat}
    (outside : size ≤ i) : clearRows size left i = left i := if_neg (Nat.not_lt_of_le outside)

section Phases
variable [Zero Num] [One Num] [LT Num]
variable {before batch batch' : InputBatch Num} {requests requests' : List (LiveRequest Num)}
  {left : Nat → Nat → Bool} {slots : Table Num}

theorem Stage.remove (stage : Stage before requests left batch slots) (tracks : Tracks batch slots)
    (i : Nat) (live : LiveRequest Num) (result : Option Nat) (sits : seat slots i = some live)
    (clear : ∀ token, left i token = false)
    (removed : batch.removeRequest live.reqId = some (result, batch')) :
    Stage before requests left batch' (vacate slots live.reqId) := by
  have present := (tracks.named.index live.reqId i).mpr ⟨live, sits, rfl⟩
  have gone : seat (vacate slots live.reqId) i = none := by
    rw [seat_vacate, sits]
    simp [filter_some]
  have others (k : Nat) (elsewhere : k ≠ i) : seat (vacate slots live.reqId) k = seat slots k := by
    rw [seat_vacate]
    cases seated : seat slots k with
    | none => rfl
    | some other =>
      have different : other.reqId ≠ live.reqId := fun same =>
        elsewhere (same_seat tracks.named seated sits same)
      simp [filter_some, different]
  rcases removeRequest_cases live.reqId result batch' removed with
    ⟨absent, -⟩ | ⟨k, builder, unadapted, found, appended, dropped, rfl⟩
  · rw [absent] at present
    contradiction
  · obtain rfl : i = k := some.inj (present.symm.trans found)
    obtain ⟨_, _, rfl, -, -⟩ := dropLora_cases live.reqId dropped
    obtain ⟨additions, moves⟩ : builder.added = batch.batchUpdateBuilder.added ∧
        builder.moved = batch.batchUpdateBuilder.moved := by
      unfold BatchUpdateBuilder.removedAppend at appended
      split at appended
      · contradiction
      · obtain rfl := some.inj appended
        exact ⟨rfl, rfl⟩
    constructor
    · exact stage.config
    · exact stage.metadata
    · show MaskRows _ left (hostMask (batch.allowedTokenIdsMaskCpu.map fun mask =>
        update mask i fun _ => false)) _
      rw [hostMask_cleared]
      exact stage.rows.vacate live.reqId i gone others clear
    · intro noneAdded noneMoved k other seated
      exact stage.quiet (additions.symm.trans noneAdded) (moves.symm.trans noneMoved) k other
        (seat_vacate_iff.mp seated).1

theorem Stage.add [DecidableLT Num] [DecidableEq Num]
    (stage : Stage before requests left batch slots) (tracks : Tracks batch slots)
    (freed : Freed batch.batchUpdateBuilder slots) (request : CachedRequestState Num)
    (heap : Heap) (index : Nat)
    (clear : orNone request.samplingParams.allowedTokenIds = none →
      ∀ token < before.config.vocabSize, left (newSlot slots) token = false)
    (added : batch.addRequest request heap = some (index, batch')) :
    Stage before requests left batch' (place slots ⟨request, heap request.outputTokenIds, []⟩) := by
  obtain ⟨rfl, -, additions, -, -, mask, config, -, metadata⟩ :=
    addRequest_frame tracks freed request heap index added
  constructor
  · exact config.trans stage.config
  · exact metadata.trans stage.metadata
  · rw [mask, hostMask_added]
    exact stage.rows.place ⟨request, heap request.outputTokenIds, []⟩ clear
  · intro noneAdded
    rw [additions] at noneAdded
    simp at noneAdded

omit [Zero Num] [One Num] [LT Num] in
theorem Stage.redraft (stage : Stage before requests left batch slots) (reqId : ReqId)
    (specTokenIds : List Token)
    (updated : batch.updateReqSpecTokenIds reqId specTokenIds = some batch') :
    Stage before requests left batch'
      (slots.map (Option.map (LiveRequest.redraft reqId specTokenIds))) := by
  obtain ⟨_, _, rfl⟩ := updateReqSpecTokenIds_frame updated
  constructor
  · exact stage.config
  · exact stage.metadata
  · exact stage.rows.redraft reqId specTokenIds
  · intro noneAdded noneMoved k live seated
    rw [seat_map] at seated
    obtain ⟨other, sits, rfl⟩ := map_eq_some_iff.mp seated
    rw [redraft_request]
    exact stage.quiet noneAdded noneMoved k other sits

/-- While the gaps are closed, whoever sits beyond the new size has not been moved. -/
structure Shifting (before : InputBatch Num) (requests : List (LiveRequest Num))
    (left : Nat → Nat → Bool) (settled : Table Num) (batch : InputBatch Num)
    (slots : Table Num) : Prop where
  stage : Stage before requests (leftRows left settled) batch slots
  size : occupied slots = occupied settled
  unmoved : ∀ i live, occupied settled ≤ i → seat slots i = some live →
    seat settled i = some live

theorem shifting_invariant {before : InputBatch Num} {requests : List (LiveRequest Num)}
    {left : Nat → Nat → Bool} {settled : Table Num} :
    LoopInvariant (Shifting before requests left settled) := by
  constructor
  · intro batch slots builder shifting additions moves
    have stage := shifting.stage
    constructor
    · constructor
      · exact stage.config
      · exact stage.metadata
      · exact stage.rows
      · intro noneAdded noneMoved
        exact stage.quiet (additions.symm.trans noneAdded) (moves.symm.trans noneMoved)
    · exact shifting.size
    · exact shifting.unmoved
  · intro batch slots last empty live batch' _ shifting movable lowest below beyond moved
    have stage := shifting.stage
    have high := occupied_le_last slots last empty movable.free below beyond
    have low := lowestFree_lt_occupied slots last empty live lowest movable.sits below
    rw [shifting.size] at high low
    -- The mover has its row from before the loop, and the row stays.
    have stays : leftRows left settled last = forbids live.request := by
      have seated := shifting.unmoved last live high movable.sits
      unfold leftRows
      rw [(seat_eq_some settled last live).mp seated]
    obtain ⟨_, _, _, -, -, -, rfl⟩ := moveRequest_cases moved
    constructor
    · constructor
      · exact stage.config
      · exact stage.metadata
      · show MaskRows _ _ (hostMask (batch.allowedTokenIdsMaskCpu.map fun mask =>
          update mask empty (mask last))) _
        rw [hostMask_copied]
        exact stage.rows.move movable stays
      · intro _ noneMoved
        exact absurd noneMoved (by simp [InputBatch.logMove])
    · have perm := relocate_perm slots movable.sits movable.free
      exact perm.length_eq.trans shifting.size
    · intro i other outside seated
      rw [seat_moved movable] at seated
      split at seated
      · contradiction
      · rw [if_neg (by omega)] at seated
        exact shifting.unmoved i other outside seated
  · intro batch slots n shifting
    have stage := shifting.stage
    exact ⟨⟨stage.config, stage.metadata, stage.rows, stage.quiet⟩, shifting.size, shifting.unmoved⟩

omit [Zero Num] [One Num] [LT Num] in
theorem Stage.swap (stage : Stage before requests left batch (requests'.map some)) (i j : Nat)
    (boundI : i < requests'.length) (boundJ : j < requests'.length)
    (alike : ∀ first second, requests'[i]? = some first → requests'[j]? = some second →
      Alike before.config.vocabSize first.request second.request)
    (swapped : batch.swapStates i j = some batch') :
    Stage before requests left batch' ((exchange requests' i j).map some) := by
  obtain ⟨_, _, _, _, _, _, _, -, -, -, -, -, -, -, rfl⟩ := swapStates_cases swapped
  constructor
  · exact stage.config
  · exact stage.metadata
  · exact stage.rows.swap i j boundI boundJ alike
      (hostMask_swapped batch.allowedTokenIdsMaskCpu i j)
  · intro _ noneMoved
    exact absurd noneMoved (by simp [InputBatch.logMove])

end Phases

/-! Whole steps. -/

section Steps
variable [Zero Num] [One Num] [LT Num] [DecidableLT Num] [DecidableEq Num]

omit [Zero Num] [One Num] [LT Num] [DecidableLT Num] [DecidableEq Num] in
theorem getAndReset_none {builder : BatchUpdateBuilder Num} {batchSize : Nat}
    (silent : (builder.getAndReset batchSize).1 = none) :
    builder.added = [] ∧ builder.moved = [] := by
  unfold BatchUpdateBuilder.getAndReset at silent
  split at silent
  · rename_i bare
    simp only [Bool.and_eq_true, List.isEmpty_iff] at bare
    exact ⟨bare.2, bare.1.2⟩
  · contradiction

/-- Between two steps the rows beyond the batch are what is left there. -/
structure Rested (left : Nat → Nat → Bool) (batch : InputBatch Num)
    (requests : List (LiveRequest Num)) : Prop where
  idle : Idle batch requests
  isolated : Isolated batch requests
  rows : MaskRows batch.config.vocabSize left (hostMask batch.allowedTokenIdsMaskCpu)
    (requests.map some)

/-- During the additions every free slot is one of the old table. -/
structure Settling (batch : InputBatch Num) (requests : List (LiveRequest Num))
    (left : Nat → Nat → Bool) (heap : Heap) (rest : List (AddOp Num)) (batch' : InputBatch Num)
    (slots : Table Num) : Prop where
  stage : Stage batch requests (clearRows requests.length left) batch' slots
  longer : requests.length ≤ slots.length
  free : ∀ i, slots[i]? = some none → i < requests.length
  clear : AddsClear batch.config.vocabSize left heap slots rest

theorem Settling.add {left : Nat → Nat → Bool} {before batch batch' : InputBatch Num}
    {requests : List (LiveRequest Num)} {heap : Heap} {rest : List (AddOp Num)}
    {slots : Table Num} {request : CachedRequestState Num}
    (settling : Settling before requests left heap (.addRequest request :: rest) batch slots)
    (tracks : Tracks batch slots) (freed : Freed batch.batchUpdateBuilder slots) (index : Nat)
    (added : batch.addRequest request heap = some (index, batch')) :
    Settling before requests left heap rest batch'
      (place slots ⟨request, heap request.outputTokenIds, []⟩) := by
  have clear : orNone request.samplingParams.allowedTokenIds = none →
      ∀ token < before.config.vocabSize,
        clearRows requests.length left (newSlot slots) token = false := by
    intro unrestricted token inside
    cases lowest : lowestFree slots with
    | some slot =>
      have atSlot : newSlot slots = slot := by rw [newSlot, lowest, getD_some]
      rw [atSlot]
      exact clearRows_below (settling.free slot (lowestFree_some slots lowest).1)
    | none =>
      have atEnd : newSlot slots = slots.length := by rw [newSlot, lowest, getD_none]
      rw [atEnd, clearRows_above settling.longer]
      exact settling.clear.1 lowest unrestricted token inside
  constructor
  · exact settling.stage.add tracks freed request heap index clear added
  · have longer := settling.longer
    unfold place
    split
    · rwa [length_set]
    · rw [length_append]
      omega
  · intro i free
    rw [place_getElem?] at free
    split at free
    · exact absurd (some.inj free) (by simp)
    · exact settling.free i free
  · exact settling.clear.2

/-- The phases up to the additions. -/
theorem settle_stage {left : Nat → Nat → Bool} {batch removed added : InputBatch Num}
    {requests : List (LiveRequest Num)} (rested : Rested left batch requests)
    (step : WorkerStep Num) (fresh : StepFresh requests step)
    (clear : AddsClear batch.config.vocabSize left step.heap
      (step.removed.foldl vacate (requests.map some)) step.added)
    (removes : batch.removeAll step.removed = some removed)
    (adds : removed.addAll step.heap step.added = some added) :
    Tracks added (settle requests step) ∧ Freed added.batchUpdateBuilder (settle requests step) ∧
      Stage batch requests (leftRows left (settle requests step)) added (settle requests step) := by
  have idle := rested.idle
  have started : Stage batch requests (clearRows requests.length left) batch
      (requests.map some) := by
    constructor
    · rfl
    · rfl
    · intro i token inside
      rw [rested.rows i token inside, seat_map_some]
      cases sits : requests[i]? with
      | some live => rfl
      | none => rw [clearRows_above (List.getElem?_eq_none_iff.mp sits)]
    · intro _ _ i live sits
      rw [seat_map_some] at sits
      exact ⟨live, sits, rfl⟩
  obtain ⟨tracks1, freed1, stage1, length1⟩ := removeAll_spec
    (P := fun batch' slots => Stage batch requests (clearRows requests.length left) batch' slots ∧
      slots.length = requests.length) step.removed
    (fun batch' slots i live after result _ tracks _ held sits done => by
      have bound := seat_bound slots i live sits
      refine ⟨held.1.remove tracks i live result sits (fun token => ?_) done, ?_⟩
      · exact clearRows_below (by omega)
      · rw [← held.2]
        exact length_map _)
    batch removed _ idle.tracks idle.freed ⟨started, length_map some⟩ removes
  have entering : Settling batch requests left step.heap step.added removed
      (step.removed.foldl vacate (requests.map some)) := by
    constructor
    · exact stage1
    · exact Nat.le_of_eq length1.symm
    · intro i free
      rw [← length1]
      exact (List.getElem?_eq_some_iff.mp free).1
    · exact clear
  obtain ⟨tracks2, freed2, settled⟩ := addAll_spec
    (P := Settling batch requests left step.heap) step.heap step.added
    (fun _ _ _ _ index _ tracks freed settling _ done => settling.add tracks freed index done)
    (fun _ _ slots reqId specTokenIds _ _ settling done => by
      constructor
      · exact settling.stage.redraft reqId specTokenIds done
      · rw [length_map]
        exact settling.longer
      · intro i free
        apply settling.free i
        cases slot : slots[i]? with
        | none => simp [slot] at free
        | some content =>
          cases content with
          | none => rfl
          | some live => simp [slot] at free
      · exact settling.clear.2)
    removed added _ tracks1 freed1 entering fresh adds
  refine ⟨tracks2, freed2, settled.stage.config, settled.stage.metadata, ?_, settled.stage.quiet⟩
  intro i token inside
  rw [settled.stage.rows i token inside]
  unfold seat leftRows settle
  -- A free slot has been cleared, and beyond the table nothing has been written.
  cases slot : (step.added.foldl (BatchSlots.applyAdd step.heap)
      (step.removed.foldl vacate (requests.map some)))[i]? with
  | none =>
    have outside := List.getElem?_eq_none_iff.mp slot
    rw [join_none, elim_none, elim_none, clearRows_above (Nat.le_trans settled.longer outside)]
  | some content =>
    cases content with
    | none => exact clearRows_below (settled.free i slot)
    | some live => rfl

omit [DecidableLT Num] in
/-- After the swaps the batch is rested, but for the log. -/
theorem refresh_isolated {left : Nat → Nat → Bool} {before batch batch' : InputBatch Num}
    {requests requests' : List (LiveRequest Num)} (heap : Heap)
    (isolated : Isolated before requests)
    (stage : Stage before requests left batch (requests'.map some))
    (tracks : Tracks batch (requests'.map some))
    (refreshed : batch.refreshMetadata heap = some batch') : Rested left batch' requests' := by
  have idle := refresh_idle tracks refreshed
  have size : batch.numReqs = requests'.length := by
    rw [numReqs_eq tracks.named, occupied, reduceOption_map_some]
  obtain ⟨device, samplingMetadata, rfl, source⟩ := refreshMetadata_cases refreshed
  refine ⟨idle, ⟨?_, ?_⟩, ?_⟩
  · rw [idle.tracks.named.reqIds, List.map_map]
    rfl
  · intro rows handed i live sits
    have seated : seat (requests'.map some) i = some live := (seat_map_some requests' i).trans sits
    rcases source with ⟨silent, rfl⟩ | ⟨-, rfl⟩ | ⟨cpu, inHost, rfl⟩
    · -- Nothing was logged, so the sampler keeps the mask it had.
      obtain ⟨additions, moves⟩ := getAndReset_none silent
      obtain ⟨old, was, same⟩ := stage.quiet additions moves i live seated
      rw [stage.metadata] at handed
      rw [stage.config, ← same]
      exact isolated.rows rows handed i old was
    · contradiction
    · obtain rfl := some.inj handed
      have inside : i < batch.numReqs := by
        rw [size]
        exact (List.getElem?_eq_some_iff.mp sits).1
      rw [getElem?_map, getElem?_range inside, map_some]
      congr 1
      apply map_congr_left
      intro token member
      rw [stage.config] at member
      have shown := stage.rows i token (mem_range.mp member)
      rw [inHost, seated] at shown
      exact shown
  · rw [stage.config]
    exact stage.rows

/-- A step that never exchanges unlike rows and never hands out a left row keeps requests apart. -/
theorem step_rested {left : Nat → Nat → Bool} {batch batch' : InputBatch Num}
    {requests : List (LiveRequest Num)} (rested : Rested left batch requests)
    (step : WorkerStep Num) (fresh : StepFresh requests step)
    (clear : StepClear batch.config.vocabSize left requests step)
    (ran : batch.workerStep step = some batch') :
    batch'.config = batch.config ∧
      Rested (leftRows left (settle requests step)) batch' (stepRequests requests step) := by
  obtain ⟨removed, added, condensed, swapped, removes, adds, condenses, swaps, refreshes⟩ :=
    workerStep_cases ran
  obtain ⟨tracks2, freed2, settled⟩ := settle_stage rested step fresh clear.1 removes adds
  have start : Shifting batch requests left (settle requests step) added (settle requests step) :=
    ⟨settled, rfl, fun _ _ _ sits => sits⟩
  obtain ⟨tracks3, ⟨rest, empty, shifted⟩, -⟩ := condense_spec shifting_invariant tracks2 start
    freed2 condenses
  have seats (i : Nat) : seat ((closeGaps (settle requests step)).map some) i =
      seat ((closeGaps (settle requests step)).map some ++ rest) i := by
    rw [seat_append_free _ rest empty, seat_map_some]
  have dense : Stage batch requests (leftRows left (settle requests step)) condensed
      ((closeGaps (settle requests step)).map some) := by
    constructor
    · exact shifted.stage.config
    · exact shifted.stage.metadata
    · exact shifted.stage.rows.congr _ seats
    · intro noneAdded noneMoved i live sits
      rw [seats] at sits
      exact shifted.stage.quiet noneAdded noneMoved i live sits
  obtain ⟨tracks4, reordered, -⟩ := swapAll_spec
    (P := fun rest batch' requests' =>
      Stage batch requests (leftRows left (settle requests step)) batch' (requests'.map some) ∧
        SwapsAlike batch.config.vocabSize requests' rest)
    (fun _ _ _ i j _ boundI boundJ _ held done =>
      ⟨held.1.swap i j boundI boundJ held.2.1 done, held.2.2⟩)
    step.swaps condensed swapped _ tracks3 ⟨dense, clear.2⟩ swaps
  have after := refresh_isolated step.heap rested.isolated reordered tracks4 refreshes
  refine ⟨?_, after⟩
  obtain ⟨_, _, rfl, -⟩ := refreshMetadata_cases refreshes
  exact reordered.config

omit [DecidableLT Num] in
theorem init_rested (config : BatchConfig Num) :
    Rested (fun _ _ => false) (InputBatch.init config) [] := by
  constructor
  · exact init_idle config
  · constructor
    · rfl
    · intro rows handed
      contradiction
  · intro i token _
    rfl

theorem runFrom_isolated (steps : List (WorkerStep Num)) (left : Nat → Nat → Bool)
    (start batch : InputBatch Num) (requests : List (LiveRequest Num))
    (rested : Rested left start requests) (fresh : AlongRun StepFresh requests steps)
    (clear : RunClear start.config.vocabSize left requests steps)
    (ran : steps.foldlM InputBatch.workerStep start = some batch) :
    ∀ before after reached, steps = before ++ after →
      before.foldlM InputBatch.workerStep start = some reached →
      Isolated reached (before.foldl stepRequests requests) := by
  induction steps generalizing left start requests with
  | nil =>
    intro before after reached split prefixRan
    obtain ⟨rfl, -⟩ := append_eq_nil_iff.mp split.symm
    obtain rfl : start = reached := some.inj prefixRan
    exact rested.isolated
  | cons step steps ih =>
    obtain ⟨next, one, rest⟩ := bind_eq_some_iff.mp ran
    obtain ⟨config, restedNext⟩ := step_rested rested step fresh.1 clear.1 one
    have clearNext := clear.2
    rw [← config] at clearNext
    intro before after reached split prefixRan
    cases before with
    | nil =>
      obtain rfl : start = reached := some.inj prefixRan
      exact rested.isolated
    | cons head before =>
      obtain ⟨rfl, shorter⟩ := cons.inj split
      rw [foldlM_cons, one] at prefixRan
      exact ih _ next _ restedNext fresh.2 clearNext rest before after reached shorter prefixRan

/-- In every state of such a run the sampler restricts each request by its own tokens only. -/
theorem run_isolated (config : BatchConfig Num) (steps : List (WorkerStep Num))
    (batch : InputBatch Num) (ran : InputBatch.run config steps = some batch)
    (fresh : AlongRun StepFresh [] steps)
    (clear : RunClear config.vocabSize (fun _ _ => false) [] steps) :
    ∀ before after reached, steps = before ++ after →
      InputBatch.run config before = some reached → Isolated reached (runRequests before) :=
  runFrom_isolated steps _ _ batch [] (init_rested config) fresh clear ran

end Steps

/-! Runs that exchange views, and runs that leave a row behind. -/

def restrictedRequest : CachedRequestState Int :=
  { textRequest with
    reqId := 3
    samplingParams := { plainParams with allowedTokenIds := some [0] }
    described := rfl }

/-- A restricted request changes places with one that may sample every token. -/
def swappedRun : List (WorkerStep Int) :=
  [{ addsOnly [] [restrictedRequest, textRequest] with swaps := [(0, 1)] }]

def lateRequest : CachedRequestState Int := { textRequest with reqId := 4, described := rfl }

/-- A restricted request moves down, and a later one takes the index it had. -/
def leftRun : List (WorkerStep Int) :=
  [addsOnly [] [textRequest, restrictedRequest], addsOnly [2] [], addsOnly [] [lateRequest]]

/-- The restricted request samples freely after the exchange, and the late request of the other
run is restricted by a row that is not its own. -/
theorem restrictions_not_isolated :
    (∃ batch, InputBatch.run smallBatch swappedRun = some batch ∧
      AlongRun StepFresh [] swappedRun ∧ ¬ Isolated batch (runRequests swappedRun)) ∧
    ∃ batch, InputBatch.run smallBatch leftRun = some batch ∧
      AlongRun StepFresh [] leftRun ∧ ¬ Isolated batch (runRequests leftRun) := by
  constructor
  · have mask : (InputBatch.run smallBatch swappedRun).map
        (fun batch => (batch.config.vocabSize, batch.samplingMetadata.allowedTokenIdsMask)) =
        some (4, some [[false, false, false, false], [false, false, false, false]]) := by decide
    obtain ⟨batch, ran, shown⟩ := map_eq_some_iff.mp mask
    obtain ⟨vocab, handed⟩ := Prod.mk.inj shown
    refine ⟨batch, ran, ⟨⟨by decide, by decide, trivial⟩, trivial⟩, ?_⟩
    intro isolated
    have row := isolated.rows _ handed 1 ⟨restrictedRequest, [], []⟩ rfl
    rw [vocab] at row
    revert row
    decide
  · have mask : (InputBatch.run smallBatch leftRun).map
        (fun batch => (batch.config.vocabSize, batch.samplingMetadata.allowedTokenIdsMask)) =
        some (4, some [[false, true, true, true], [false, true, true, true]]) := by decide
    obtain ⟨batch, ran, shown⟩ := map_eq_some_iff.mp mask
    obtain ⟨vocab, handed⟩ := Prod.mk.inj shown
    refine ⟨batch, ran, ⟨⟨by decide, by decide, trivial⟩, trivial, ⟨by decide, trivial⟩, trivial⟩,
      ?_⟩
    intro isolated
    have row := isolated.rows _ handed 1 ⟨lateRequest, [], []⟩ rfl
    rw [vocab] at row
    revert row
    decide

def secondRestricted : CachedRequestState Int :=
  { restrictedRequest with reqId := 5, described := rfl }

/-- Two requests with the same allowed tokens change places, and one of them leaves. -/
def alikeRun : List (WorkerStep Int) :=
  [{ addsOnly [] [restrictedRequest, secondRestricted] with swaps := [(0, 1)] }, addsOnly [5] []]

theorem alikeRun_isolated :
    ∃ batch, InputBatch.run smallBatch alikeRun = some batch ∧
      Isolated batch (runRequests alikeRun) := by
  have started : (InputBatch.run smallBatch alikeRun).isSome = true := by decide
  obtain ⟨batch, ran⟩ := isSome_iff_exists.mp started
  have fresh : AlongRun StepFresh [] alikeRun :=
    ⟨⟨by decide, by decide, trivial⟩, trivial, trivial⟩
  have clear : RunClear smallBatch.vocabSize (fun _ _ => false) [] alikeRun := by
    refine ⟨⟨⟨?_, ?_, trivial⟩, ?_, trivial⟩, ⟨trivial, trivial⟩, trivial⟩
    · trivial
    · trivial
    · intro first second here there
      obtain rfl : (⟨restrictedRequest, [], []⟩ : LiveRequest Int) = first := some.inj here
      obtain rfl : (⟨secondRestricted, [], []⟩ : LiveRequest Int) = second := some.inj there
      exact fun token _ => rfl
  exact ⟨batch, ran, run_isolated smallBatch alikeRun batch ran fresh clear alikeRun [] batch
    (append_nil alikeRun).symm ran⟩

end VllmDcu.AllowedMask

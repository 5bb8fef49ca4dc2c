import Mathlib.Algebra.Ring.Int.Defs
import VllmDcu.BatchMoves

/-! Whole worker steps, and runs of them: the batch follows its requests except for
prompt embeddings, which a removal leaves behind. -/
namespace VllmDcu.BatchRun
open Requests (Token ReqId)
open LogitsProcessors PersistentBatch Slots BatchSlots BatchTracks BatchMoves List Option
variable {Num : Type}

theorem holds_iff_mem (slots : Table Num) (reqId : ReqId) :
    reqId ∉ slots.reduceOption.map LiveRequest.reqId ↔
      ∀ other, Holds slots other → other.reqId ≠ reqId := by
  constructor
  · rintro absent _ ⟨i, live, sits, rfl⟩ rfl
    exact absent (List.mem_map.mpr ⟨live, (mem_reduceOption_iff slots live).mpr ⟨i, sits⟩, rfl⟩)
  · intro fresh member
    obtain ⟨live, inside, same⟩ := List.mem_map.mp member
    obtain ⟨i, sits⟩ := (mem_reduceOption_iff slots live).mp inside
    exact fresh live.request ⟨i, live, sits, rfl⟩ same

theorem redraft_freed (builder : BatchUpdateBuilder Num) (slots : Table Num)
    (freed : Freed builder slots) (change : LiveRequest Num → LiveRequest Num) :
    Freed builder (slots.map (Option.map change)) := by
  constructor
  · exact freed.unique
  · intro i
    rw [freed.free i, getElem?_map]
    cases slots[i]? with
    | none => simp
    | some slot => cases slot <;> simp
  · rw [occupied, reduceOption_map, length_map, length_map]
    exact freed.count
  · exact freed.sorted

theorem updateReqSpecTokenIds_frame {batch batch' : InputBatch Num} {reqId : ReqId}
    {specTokenIds : List Token}
    (updated : batch.updateReqSpecTokenIds reqId specTokenIds = some batch') :
    ∃ spec tokens, batch' = { batch with specTokenIds := spec, tokenIdsCpu := tokens } := by
  obtain ⟨i, -, rest⟩ := bind_eq_some_iff.mp updated
  simp only at rest
  split at rest
  · simp only [Option.pure_def, some.injEq] at rest
    exact ⟨_, _, rest.symm⟩
  · contradiction

theorem getAndReset_empty {builder : BatchUpdateBuilder Num} {batchSize : Nat} :
    (builder.getAndReset batchSize).2.removedList = [] ∧
      (builder.getAndReset batchSize).2.isRemovedSorted = false ∧
      (builder.getAndReset batchSize).2.added = [] ∧
      (builder.getAndReset batchSize).2.moved = [] := by
  unfold BatchUpdateBuilder.getAndReset
  split
  · rename_i bare
    simp only [Bool.and_eq_true, List.isEmpty_iff] at bare
    exact ⟨bare.1.1, rfl, bare.2, bare.1.2⟩
  · exact ⟨rfl, rfl, rfl, rfl⟩

section Phases
variable [Zero Num] [One Num] [LT Num]

/-- The batch between two steps: no gaps, and nothing logged. -/
structure Idle (batch : InputBatch Num) (requests : List (LiveRequest Num)) : Prop where
  tracks : Tracks batch (requests.map some)
  removed : batch.batchUpdateBuilder.removedList = []
  unsorted : batch.batchUpdateBuilder.isRemovedSorted = false
  added : batch.batchUpdateBuilder.added = []
  moved : batch.batchUpdateBuilder.moved = []

variable {batch : InputBatch Num}

theorem Idle.freed {requests : List (LiveRequest Num)} (idle : Idle batch requests) :
    Freed batch.batchUpdateBuilder (requests.map some) := by
  constructor
  · rw [idle.removed]
    exact nodup_nil
  · rw [idle.removed]
    simp
  · rw [idle.removed, occupied, reduceOption_map_some]
    simp
  · rw [idle.removed]
    exact fun _ => List.Pairwise.nil

theorem removeAll_spec {P : InputBatch Num → Table Num → Prop} (ids : List ReqId)
    (keep : ∀ batch slots i live batch' result, live.reqId ∈ ids → Tracks batch slots →
      Freed batch.batchUpdateBuilder slots → P batch slots → seat slots i = some live →
      batch.removeRequest live.reqId = some (result, batch') →
      P batch' (vacate slots live.reqId))
    (batch batch' : InputBatch Num) (slots : Table Num) (tracks : Tracks batch slots)
    (freed : Freed batch.batchUpdateBuilder slots) (holds : P batch slots)
    (removed : batch.removeAll ids = some batch') :
    Tracks batch' (ids.foldl vacate slots) ∧
      Freed batch'.batchUpdateBuilder (ids.foldl vacate slots) ∧
      P batch' (ids.foldl vacate slots) := by
  induction ids generalizing batch slots with
  | nil =>
    obtain rfl : batch = batch' := some.inj removed
    exact ⟨tracks, freed, holds⟩
  | cons reqId ids ih =>
    have later := fun batch slots i live batch' result member =>
      keep batch slots i live batch' result (mem_cons_of_mem reqId member)
    obtain ⟨next, one, rest⟩ := bind_eq_some_iff.mp removed
    obtain ⟨⟨result, after⟩, done, rfl⟩ := map_eq_some_iff.mp one
    have tracked := removeRequest_tracks tracks done
    apply ih later after (vacate slots reqId) tracked ?_ ?_ rest
    · rcases removeRequest_cases reqId result after done with
        ⟨absent, rfl⟩ | ⟨i, builder, unadapted, present, appended, dropped, rfl⟩
      · rw [vacate_absent tracks.named absent]
        exact freed
      · obtain ⟨live, sits, -⟩ := (tracks.named.index reqId i).mp present
        obtain ⟨-, shape⟩ := vacate_present tracks.named present
        obtain ⟨_, _, rfl, -, -⟩ := dropLora_cases reqId dropped
        rw [shape]
        exact (removedAppend_freed _ builder freed i live sits appended).1
    · rcases removeRequest_cases reqId result after done with ⟨absent, rfl⟩ | present
      · rw [vacate_absent tracks.named absent]
        exact holds
      · obtain ⟨i, _, _, found, -⟩ := present
        obtain ⟨live, sits, rfl⟩ := (tracks.named.index reqId i).mp found
        exact keep batch slots i live after result mem_cons_self tracks freed holds sits done

/-- What an addition writes besides the arrays that show the request. -/
theorem addRequest_frame [DecidableLT Num] [DecidableEq Num] {batch batch' : InputBatch Num}
    {slots : Table Num} (tracks : Tracks batch slots)
    (freed : Freed batch.batchUpdateBuilder slots) (request : CachedRequestState Num) (heap : Heap)
    (index : Nat) (added : batch.addRequest request heap = some (index, batch')) :
    index = newSlot slots ∧
      Freed batch'.batchUpdateBuilder (place slots ⟨request, heap request.outputTokenIds, []⟩) ∧
      batch'.batchUpdateBuilder.added = batch.batchUpdateBuilder.added ++
        [⟨index, request.samplingParams, request.promptTokenIds, request.outputTokenIds⟩] ∧
      batch'.batchUpdateBuilder.moved = batch.batchUpdateBuilder.moved ∧
      batch'.reqPromptEmbeds = setIfPresent batch.reqPromptEmbeds index request.promptEmbeds ∧
      batch'.allowedTokenIdsMaskCpu = cpuMaskAfter batch request index ∧
      batch'.config = batch.config ∧ batch'.logitsprocs = batch.logitsprocs ∧
      batch'.samplingMetadata = batch.samplingMetadata := by
  obtain ⟨registered, blockTable, masked, registration, -, written, rfl⟩ := addRequest_cases added
  obtain ⟨slot, builder, rfl, left, additions, moves⟩ :=
    registerAddRequest_cases tracks.named freed registration
      ⟨request, heap request.outputTokenIds, []⟩
  obtain ⟨_, _, _, shape⟩ := placeId_shape { batch with batchUpdateBuilder := builder } request index
  rw [shape] at written
  obtain ⟨_, _, result, -, -⟩ := writeLora_cases masked
  rw [result]
  obtain ⟨_, rfl⟩ := writeAllowedTokens_cases written
  exact ⟨slot, left, additions, moves, rfl, rfl, rfl, rfl, rfl⟩

/-- What is kept by additions may speak of the additions that are still to come. -/
theorem addAll_spec [DecidableLT Num] [DecidableEq Num]
    {P : List (AddOp Num) → InputBatch Num → Table Num → Prop}
    (heap : Heap) (ops : List (AddOp Num))
    (add : ∀ rest batch slots request index batch', Tracks batch slots →
      Freed batch.batchUpdateBuilder slots → P (.addRequest request :: rest) batch slots →
      (∀ other, Holds slots other → other.reqId ≠ request.reqId) →
      batch.addRequest request heap = some (index, batch') →
      P rest batch' (place slots ⟨request, heap request.outputTokenIds, []⟩))
    (redraft : ∀ rest batch slots reqId specTokenIds batch', Tracks batch slots →
      P (.updateReqSpecTokenIds reqId specTokenIds :: rest) batch slots →
      batch.updateReqSpecTokenIds reqId specTokenIds = some batch' →
      P rest batch' (slots.map (Option.map (LiveRequest.redraft reqId specTokenIds))))
    (batch batch' : InputBatch Num) (slots : Table Num) (tracks : Tracks batch slots)
    (freed : Freed batch.batchUpdateBuilder slots) (holds : P ops batch slots)
    (fresh : AddsFresh heap slots ops) (added : batch.addAll heap ops = some batch') :
    Tracks batch' (ops.foldl (BatchSlots.applyAdd heap) slots) ∧
      Freed batch'.batchUpdateBuilder (ops.foldl (BatchSlots.applyAdd heap) slots) ∧
      P [] batch' (ops.foldl (BatchSlots.applyAdd heap) slots) := by
  induction ops generalizing batch slots with
  | nil =>
    obtain rfl : batch = batch' := some.inj added
    exact ⟨tracks, freed, holds⟩
  | cons op ops ih =>
    obtain ⟨next, one, rest⟩ := bind_eq_some_iff.mp added
    cases op with
    | addRequest request =>
      obtain ⟨⟨index, after⟩, done, rfl⟩ := map_eq_some_iff.mp one
      have absent := (holds_iff_mem slots request.reqId).mp fresh.1
      exact ih after _ (addRequest_tracks tracks freed request heap absent index after done)
        (addRequest_frame tracks freed request heap index done).2.1
        (add ops batch slots request index after tracks freed holds absent done) fresh.2 rest
    | updateReqSpecTokenIds reqId specTokenIds =>
      have builder : next.batchUpdateBuilder = batch.batchUpdateBuilder := by
        obtain ⟨_, _, rfl⟩ := updateReqSpecTokenIds_frame one
        rfl
      apply ih next _ (updateReqSpecTokenIds_tracks tracks one) ?_
        (redraft ops batch slots reqId specTokenIds next tracks holds one) fresh.2 rest
      rw [builder]
      exact redraft_freed _ slots freed _

theorem swapAll_spec {P : List (Nat × Nat) → InputBatch Num → List (LiveRequest Num) → Prop}
    (swap : ∀ rest batch requests i j batch', i < requests.length → j < requests.length →
      Tracks batch (requests.map some) → P ((i, j) :: rest) batch requests →
      batch.swapStates i j = some batch' → P rest batch' (exchange requests i j))
    (swaps : List (Nat × Nat)) (batch batch' : InputBatch Num) (requests : List (LiveRequest Num))
    (tracks : Tracks batch (requests.map some)) (holds : P swaps batch requests)
    (swapped : batch.swapAll swaps = some batch') :
    Tracks batch' ((reorder requests swaps).map some) ∧ P [] batch' (reorder requests swaps) := by
  induction swaps generalizing batch requests with
  | nil =>
    obtain rfl : batch = batch' := some.inj swapped
    exact ⟨tracks, holds⟩
  | cons pair swaps ih =>
    obtain ⟨next, one, rest⟩ := bind_eq_some_iff.mp swapped
    obtain ⟨boundI, boundJ, tracked⟩ := swapStates_tracks tracks pair.1 pair.2 next one
    exact ih next (exchange requests pair.1 pair.2) tracked
      (swap swaps batch requests pair.1 pair.2 next boundI boundJ tracks holds one) rest

omit [One Num] [LT Num] in
/-- The refresh empties the log and leaves the table as it is. -/
theorem refreshMetadata_cases [DecidableEq Num] {batch batch' : InputBatch Num} {heap : Heap}
    (refreshed : batch.refreshMetadata heap = some batch') :
    ∃ device samplingMetadata,
      batch' = { batch with
        batchUpdateBuilder := (batch.batchUpdateBuilder.getAndReset batch.numReqs).2
        logitsprocs := batch.updateLogitsprocs heap
          (batch.batchUpdateBuilder.getAndReset batch.numReqs).1
        allowedTokenIdsMask := device
        samplingMetadata } ∧
      ((batch.batchUpdateBuilder.getAndReset batch.numReqs).1 = none ∧
          samplingMetadata = batch.samplingMetadata ∨
        batch.hasAllowedTokenIds = ∅ ∧ samplingMetadata = ⟨none⟩ ∨
        ∃ cpu, batch.allowedTokenIdsMaskCpu = some cpu ∧
          samplingMetadata = ⟨some ((List.range batch.numReqs).map fun row =>
            (List.range batch.config.vocabSize).map (cpu row))⟩) := by
  unfold InputBatch.refreshMetadata at refreshed
  cases log : (batch.batchUpdateBuilder.getAndReset batch.numReqs).1 with
  | none =>
    simp only [log, some.injEq] at refreshed
    subst refreshed
    exact ⟨_, _, rfl, Or.inl ⟨rfl, rfl⟩⟩
  | some update =>
    simp only [log] at refreshed
    unfold InputBatch.makeSamplingMetadata at refreshed
    by_cases unrestricted : batch.hasAllowedTokenIds = ∅
    · simp only [unrestricted, ↓reduceIte, some.injEq] at refreshed
      subst refreshed
      exact ⟨_, _, by rw [unrestricted], Or.inr (Or.inl ⟨unrestricted, rfl⟩)⟩
    · simp only [unrestricted, ↓reduceIte] at refreshed
      obtain ⟨cpu, inHost, rest⟩ := bind_eq_some_iff.mp refreshed
      obtain ⟨device, onDevice, last⟩ := bind_eq_some_iff.mp rest
      simp only [Option.pure_def, some.injEq] at last
      subst last
      refine ⟨_, _, rfl, Or.inr (Or.inr ⟨cpu, inHost, ?_⟩)⟩
      congr 2
      apply map_congr_left
      intro row member
      have inside : row < batch.numReqs := mem_range.mp member
      have copied : (fun column => (if row < batch.numReqs then cpu row else device row) column) =
          cpu row := by rw [if_pos inside]
      exact congrArg (fun line => (range batch.config.vocabSize).map line) copied

theorem refresh_idle [DecidableEq Num] {batch batch' : InputBatch Num}
    {requests : List (LiveRequest Num)} {heap : Heap}
    (tracks : Tracks batch (requests.map some))
    (refreshed : batch.refreshMetadata heap = some batch') : Idle batch' requests := by
  obtain ⟨device, samplingMetadata, rfl, -⟩ := refreshMetadata_cases refreshed
  obtain ⟨removed, unsorted, added, moved⟩ := getAndReset_empty
  exact ⟨tracks_frame tracks, removed, unsorted, added, moved⟩

theorem workerStep_cases [DecidableLT Num] [DecidableEq Num] {batch batch' : InputBatch Num}
    {step : WorkerStep Num} (ran : batch.workerStep step = some batch') :
    ∃ removed added condensed swapped, batch.removeAll step.removed = some removed ∧
      removed.addAll step.heap step.added = some added ∧ added.condense = some condensed ∧
      condensed.swapAll step.swaps = some swapped ∧
      swapped.refreshMetadata step.heap = some batch' := by
  obtain ⟨removed, removes, rest⟩ := bind_eq_some_iff.mp ran
  obtain ⟨added, adds, rest⟩ := bind_eq_some_iff.mp rest
  obtain ⟨condensed, condenses, rest⟩ := bind_eq_some_iff.mp rest
  obtain ⟨swapped, swaps, refreshes⟩ := bind_eq_some_iff.mp rest
  exact ⟨removed, added, condensed, swapped, removes, adds, condenses, swaps, refreshes⟩

end Phases

/-! Prompt embeddings. -/

/-- The embeddings a step leaves behind at an index when it removes the request there. -/
def leftEmbeds (requests : List (LiveRequest Num)) (step : WorkerStep Num) (i : Nat) :
    Option (List (List Num)) :=
  requests[i]?.bind fun live =>
    if live.reqId ∈ step.removed then live.request.promptEmbeds else none

/-- Whoever gets the index of a removed request with embeddings has embeddings too. -/
def EmbedsHandedOver (requests : List (LiveRequest Num)) (step : WorkerStep Num) : Prop :=
  ∀ i, leftEmbeds requests step i ≠ none →
    ∃ next, (closeGaps (settle requests step))[i]? = some next ∧
      next.request.promptEmbeds ≠ none

/-- While requests leave, an entry is the request's or what it left. -/
structure Leaving (requests : List (LiveRequest Num)) (step : WorkerStep Num)
    (batch : InputBatch Num) (slots : Table Num) : Prop where
  entries : ∀ i, batch.reqPromptEmbeds.get? i =
    ((seat slots i).bind fun live => live.request.promptEmbeds).or (leftEmbeds requests step i)
  seats : ∀ i live, seat slots i = some live → requests[i]? = some live

/-- Afterwards what was left stays until somebody with embeddings gets the index. The slots
that have been taken again lie below those that are still free. -/
structure Handing (left : Nat → Option (List (List Num))) (batch : InputBatch Num)
    (slots : Table Num) : Prop where
  entries : ∀ i, batch.reqPromptEmbeds.get? i =
    ((seat slots i).bind fun live => live.request.promptEmbeds).or (left i)
  bound : ∀ i, left i ≠ none → i < slots.length
  refilled : ∀ i, left i ≠ none → seat slots i ≠ none → ∀ k, slots[k]? = some none → i < k

theorem removeRequest_embeds {batch batch' : InputBatch Num} {reqId : ReqId} {result : Option Nat}
    (removed : batch.removeRequest reqId = some (result, batch')) :
    batch'.reqPromptEmbeds = batch.reqPromptEmbeds := by
  rcases removeRequest_cases reqId result batch' removed with
    ⟨-, rfl⟩ | ⟨i, builder, unadapted, -, -, dropped, rfl⟩
  · rfl
  · obtain ⟨_, _, rfl, -, -⟩ := dropLora_cases reqId dropped
    rfl

theorem Leaving.remove {requests : List (LiveRequest Num)} {step : WorkerStep Num}
    {batch batch' : InputBatch Num} {slots : Table Num} (leaving : Leaving requests step batch slots)
    (i : Nat) (live : LiveRequest Num) (result : Option Nat) (named : Named batch slots)
    (asked : live.reqId ∈ step.removed) (sits : seat slots i = some live)
    (removed : batch.removeRequest live.reqId = some (result, batch')) :
    Leaving requests step batch' (vacate slots live.reqId) := by
  constructor
  · intro k
    rw [removeRequest_embeds removed, leaving.entries k]
    cases seated : seat slots k with
    | none =>
      rw [seat_vacate, seated]
      rfl
    | some other =>
      by_cases leaver : other.reqId = live.reqId
      · obtain rfl := same_seat named seated sits leaver
        obtain rfl : other = live := some.inj (seated.symm.trans sits)
        have left : leftEmbeds requests step k = other.request.promptEmbeds := by
          unfold leftEmbeds
          rw [leaving.seats k other seated, bind_some, if_pos asked]
        rw [left, seat_vacate, seated]
        cases embeds : other.request.promptEmbeds <;> simp [filter_some, embeds]
      · rw [seat_vacate, seated]
        simp [filter_some, leaver]
  · intro k other seated
    exact leaving.seats k other (seat_vacate_iff.mp seated).1

variable (ids : List ReqId)

theorem seat_vacateAll_iff {slots : Table Num} {k : Nat} {live : LiveRequest Num} :
    seat (ids.foldl vacate slots) k = some live ↔ seat slots k = some live ∧ live.reqId ∉ ids := by
  induction ids generalizing slots with
  | nil => simp
  | cons reqId ids ih =>
    rw [foldl_cons, ih, seat_vacate_iff, mem_cons, not_or, and_assoc]

theorem vacateAll_length (slots : Table Num) : (ids.foldl vacate slots).length = slots.length := by
  induction ids generalizing slots with
  | nil => rfl
  | cons reqId ids ih =>
    rw [foldl_cons, ih]
    exact length_map _

theorem Leaving.handing {requests : List (LiveRequest Num)} {step : WorkerStep Num}
    {batch : InputBatch Num}
    (leaving : Leaving requests step batch (step.removed.foldl vacate (requests.map some))) :
    Handing (leftEmbeds requests step) batch (step.removed.foldl vacate (requests.map some)) := by
  constructor
  · exact leaving.entries
  · intro i left
    rw [vacateAll_length, length_map]
    unfold leftEmbeds at left
    cases found : requests[i]? with
    | none => simp [found] at left
    | some live => exact (List.getElem?_eq_some_iff.mp found).1
  · intro i left seated
    cases sits : seat (step.removed.foldl vacate (requests.map some)) i with
    | none => exact absurd sits seated
    | some live =>
      -- A slot that was left is free until an addition.
      obtain ⟨before, kept⟩ := (seat_vacateAll_iff _).mp sits
      rw [seat_map_some] at before
      unfold leftEmbeds at left
      rw [before, bind_some, if_neg kept] at left
      exact absurd rfl left

variable {left : Nat → Option (List (List Num))} {batch batch' : InputBatch Num}

theorem Handing.place {slots : Table Num} (handing : Handing left batch slots)
    (newcomer : LiveRequest Num)
    (embeds : batch'.reqPromptEmbeds =
      setIfPresent batch.reqPromptEmbeds (newSlot slots) newcomer.request.promptEmbeds) :
    Handing left batch' (place slots newcomer) := by
  constructor
  · intro k
    rw [embeds, seat_newcomer]
    have before := handing.entries k
    by_cases here : k = newSlot slots
    · subst here
      rw [newSlot_free] at before
      cases asked : newcomer.request.promptEmbeds with
      | none => simpa [setIfPresent, asked] using before
      | some rows => simp [setIfPresent, asked]
    · rw [if_neg here]
      cases asked : newcomer.request.promptEmbeds with
      | none => exact before
      | some rows => simpa [setIfPresent, here] using before
  · intro i leaves
    have bound := handing.bound i leaves
    unfold Slots.place
    split
    · rwa [length_set]
    · rw [length_append]
      omega
  · intro i leaves seated k free
    rw [place_getElem?] at free
    split at free
    · exact absurd (some.inj free) (by simp)
    · rw [seat_newcomer] at seated
      by_cases here : i = newSlot slots
      · -- The newcomer took the lowest free slot.
        subst here
        have bound := handing.bound _ leaves
        cases lowest : lowestFree slots with
        | none => simp [newSlot, lowest] at bound
        | some slot =>
          have atSlot : newSlot slots = slot := by simp [newSlot, lowest]
          rw [atSlot]
          by_contra above
          rcases Nat.lt_or_eq_of_le (Nat.le_of_not_lt above) with below | same
          · obtain ⟨x, taken⟩ := (lowestFree_some slots lowest).2 k below
            rw [taken] at free
            exact absurd (some.inj free) (by simp)
          · rename_i elsewhere
            rw [lowest] at elsewhere
            exact elsewhere same
      · rw [if_neg here] at seated
        exact handing.refilled i leaves seated k free

theorem Handing.redraft {slots : Table Num} (handing : Handing left batch slots) (reqId : ReqId)
    (specTokenIds : List Token) (embeds : batch'.reqPromptEmbeds = batch.reqPromptEmbeds) :
    Handing left batch' (slots.map (Option.map (LiveRequest.redraft reqId specTokenIds))) := by
  constructor
  · intro k
    rw [embeds, handing.entries k, seat_map]
    cases seat slots k with
    | none => rfl
    | some live => simp [redraft_request]
  · intro i leaves
    rw [length_map]
    exact handing.bound i leaves
  · intro i leaves seated k free
    apply handing.refilled i leaves
    · intro nobody
      rw [seat_map, nobody] at seated
      exact seated rfl
    · cases slot : slots[k]? with
      | none => simp [slot] at free
      | some content =>
        cases content with
        | none => rfl
        | some live => simp [slot] at free

theorem Handing.move {slots : Table Num} (handing : Handing left batch slots) {last empty : Nat}
    {live : LiveRequest Num} (movable : Movable slots last empty live)
    (lowest : lowestFree slots = some empty) (below : empty < last)
    (embeds : batch'.reqPromptEmbeds = InputBatch.moveDictValue batch.reqPromptEmbeds last empty) :
    Handing left batch' (relocate slots last empty) := by
  obtain ⟨lastBound, emptyBound, different, nobody⟩ := movable.bounds
  -- The mover's index was not left by anyone: it lies above the free slot.
  have plain : left last = none := by
    by_contra leaves
    have earlier := handing.refilled last leaves (by simp [movable.sits]) empty movable.free
    omega
  have source := handing.entries last
  rw [movable.sits, plain, or_none] at source
  have target := handing.entries empty
  rw [nobody] at target
  constructor
  · intro k
    rw [embeds, seat_moved movable]
    unfold InputBatch.moveDictValue
    cases asked : batch.reqPromptEmbeds.get? last with
    | none =>
      rw [asked] at source
      by_cases atLast : k = last
      · simp [atLast, asked, plain]
      · by_cases atEmpty : k = empty
        · simp [atEmpty, different.symm, target, ← source]
        · simp [atLast, atEmpty, handing.entries k]
    | some rows =>
      rw [asked] at source
      by_cases atLast : k = last
      · simp [atLast, different, plain]
      · by_cases atEmpty : k = empty
        · simp [atEmpty, different.symm, ← source]
        · simp [atLast, atEmpty, handing.entries k]
  · intro i leaves
    unfold relocate
    rw [length_set, length_set]
    exact handing.bound i leaves
  · intro i leaves seated k free
    rw [seat_moved movable] at seated
    have notLast : i ≠ last := by
      rintro rfl
      exact seated (if_pos rfl)
    rw [if_neg notLast] at seated
    have slot : k = last ∨ k ≠ empty ∧ slots[k]? = some none := by
      by_cases atLast : k = last
      · exact Or.inl atLast
      · unfold relocate at free
        rw [getElem?_set, if_neg (Ne.symm atLast), getElem?_set] at free
        by_cases atEmpty : k = empty
        · subst atEmpty
          rw [if_pos rfl, if_pos emptyBound,
            show slots[last]?.join = some live from movable.sits] at free
          exact absurd (some.inj free) (by simp)
        · rw [if_neg (Ne.symm atEmpty)] at free
          exact Or.inr ⟨atEmpty, free⟩
    have floor : i ≤ empty := by
      by_cases atEmpty : i = empty
      · exact Nat.le_of_eq atEmpty
      · rw [if_neg atEmpty] at seated
        exact Nat.le_of_lt (handing.refilled i leaves seated empty movable.free)
    rcases slot with rfl | ⟨notEmpty, old⟩
    · omega
    · have above : empty ≤ k := by
        by_contra earlier
        obtain ⟨x, taken⟩ := (lowestFree_some slots lowest).2 k (by omega)
        rw [taken] at old
        exact absurd (some.inj old) (by simp)
      omega

/-- The entries fit the dense table exactly when everything that was left got handed over. -/
theorem Handing.fits_iff {requests : List (LiveRequest Num)} {rest : Table Num}
    (handing : Handing left batch (requests.map some ++ rest)) (empty : ∀ x, some x ∉ rest) :
    IndexMap batch.reqPromptEmbeds (requests.map some) (fun request => request.promptEmbeds) ↔
      ∀ i, left i ≠ none → ∃ next, requests[i]? = some next ∧ next.request.promptEmbeds ≠ none := by
  have entries (i : Nat) : batch.reqPromptEmbeds.get? i =
      (requests[i]?.bind fun live => live.request.promptEmbeds).or (left i) := by
    rw [handing.entries i, seat_append_free requests rest empty]
  constructor
  · intro known i leaves
    have both := (entries i).symm.trans (known i)
    rw [seat_map_some] at both
    cases found : requests[i]? with
    | none =>
      rw [found] at both
      exact absurd both leaves
    | some next =>
      refine ⟨next, rfl, ?_⟩
      intro plain
      rw [found, bind_some, plain] at both
      exact leaves both
  · intro handed i
    rw [entries i, seat_map_some]
    by_cases leaves : left i = none
    · rw [leaves, or_none]
    · obtain ⟨next, found, embedded⟩ := handed i leaves
      rw [found, bind_some]
      cases asked : next.request.promptEmbeds with
      | none => exact absurd asked embedded
      | some rows => rfl

/-! Who is live does not depend on the order of the slots. -/

def liveAdd (heap : Heap) (live : List (LiveRequest Num)) (op : AddOp Num) :
    List (LiveRequest Num) :=
  match op with
  | .addRequest request => ⟨request, heap request.outputTokenIds, []⟩ :: live
  | .updateReqSpecTokenIds reqId specTokenIds => live.map (LiveRequest.redraft reqId specTokenIds)

def liveAfter (live : List (LiveRequest Num)) (step : WorkerStep Num) : List (LiveRequest Num) :=
  step.added.foldl (liveAdd step.heap) (live.filter fun request => request.reqId ∉ step.removed)

/-- The requests added and not yet removed. -/
def liveRequests (steps : List (WorkerStep Num)) : List (LiveRequest Num) :=
  steps.foldl liveAfter []

theorem addAll_perm (heap : Heap) (ops : List (AddOp Num)) (slots : Table Num)
    (live : List (LiveRequest Num)) (perm : slots.reduceOption.Perm live) :
    (ops.foldl (BatchSlots.applyAdd heap) slots).reduceOption.Perm
      (ops.foldl (liveAdd heap) live) := by
  induction ops generalizing slots live with
  | nil => exact perm
  | cons op ops ih =>
    apply ih
    cases op with
    | addRequest request => exact (place_perm slots _).trans (perm.cons _)
    | updateReqSpecTokenIds reqId specTokenIds =>
      show (slots.map (Option.map _)).reduceOption.Perm _
      rw [reduceOption_map]
      exact perm.map _

theorem vacateAll_reduceOption (slots : Table Num) :
    (ids.foldl vacate slots).reduceOption =
      slots.reduceOption.filter fun live => live.reqId ∉ ids := by
  induction ids generalizing slots with
  | nil => simp
  | cons reqId ids ih =>
    rw [foldl_cons, ih, reduceOption_vacate]
    simp [not_or, Bool.and_comm]

theorem reorder_perm (requests : List (LiveRequest Num)) (swaps : List (Nat × Nat)) :
    (reorder requests swaps).Perm requests := by
  induction swaps generalizing requests with
  | nil => exact Perm.refl _
  | cons pair swaps ih => exact (ih _).trans (exchange_perm requests pair.1 pair.2)

theorem runRequests_perm (steps : List (WorkerStep Num)) (requests live : List (LiveRequest Num))
    (perm : requests.Perm live) :
    (steps.foldl stepRequests requests).Perm (steps.foldl liveAfter live) := by
  induction steps generalizing requests live with
  | nil => exact perm
  | cons step steps ih =>
    apply ih
    apply (reorder_perm _ step.swaps).trans
    apply (closeGaps_perm _).trans
    apply addAll_perm
    rw [vacateAll_reduceOption, reduceOption_map_some]
    exact perm.filter _

section Steps
variable [Zero Num] [One Num] [LT Num] [DecidableLT Num] [DecidableEq Num]

omit [DecidableLT Num] [DecidableEq Num] in
theorem handing_invariant {left : Nat → Option (List (List Num))} :
    LoopInvariant (fun batch slots => Handing left batch slots) := by
  constructor
  · intro batch slots builder handing _ _
    exact ⟨handing.entries, handing.bound, handing.refilled⟩
  · intro batch slots last empty live batch' _ handing movable lowest below _ moved
    apply handing.move movable lowest below
    obtain ⟨_, _, _, -, -, -, rfl⟩ := moveRequest_cases moved
    rfl
  · intro batch slots n handing
    exact ⟨handing.entries, handing.bound, handing.refilled⟩

/-- The live requests occupy the first indices, and everything kept by index or by id shows
them and nobody else. -/
structure Follows (batch : InputBatch Num) (requests : List (LiveRequest Num)) : Prop where
  size : batch.numReqs = requests.length
  tracks : Tracks batch (requests.map some)
  embeds : IndexMap batch.reqPromptEmbeds (requests.map some) fun request => request.promptEmbeds

/-- One worker step keeps everything but the embeddings, and these exactly when they are handed
over. -/
theorem step_follows_iff {batch batch' : InputBatch Num} {requests : List (LiveRequest Num)}
    {step : WorkerStep Num} (idle : Idle batch requests) (follows : Follows batch requests)
    (fresh : StepFresh requests step) (ran : batch.workerStep step = some batch') :
    Idle batch' (stepRequests requests step) ∧
      (Follows batch' (stepRequests requests step) ↔ EmbedsHandedOver requests step) := by
  obtain ⟨removed, added, condensed, swapped, removes, adds, condenses, swaps, refreshes⟩ :=
    workerStep_cases ran
  have leaving : Leaving requests step batch (requests.map some) := by
    constructor
    · intro i
      rw [follows.embeds i, seat_map_some]
      unfold leftEmbeds
      cases requests[i]? with
      | none => rfl
      | some live =>
        simp only [bind_some]
        split
        · cases live.request.promptEmbeds <;> rfl
        · rw [or_none]
    · intro i live sits
      rwa [seat_map_some] at sits
  obtain ⟨tracks1, freed1, left⟩ := removeAll_spec (P := Leaving requests step) step.removed
    (fun batch slots i live batch' result asked tracks _ leaving sits done =>
      leaving.remove i live result tracks.named asked sits done)
    batch removed _ idle.tracks idle.freed leaving removes
  obtain ⟨tracks2, freed2, handing⟩ := addAll_spec
    (P := fun _ batch slots => Handing (leftEmbeds requests step) batch slots) step.heap step.added
    (fun _ batch slots request index batch' tracks freed handing _ done => by
      obtain ⟨rfl, -, -, -, embeds, -⟩ := addRequest_frame tracks freed request step.heap index done
      exact handing.place _ embeds)
    (fun _ batch slots reqId specTokenIds batch' _ handing done => by
      obtain ⟨_, _, rfl⟩ := updateReqSpecTokenIds_frame done
      exact handing.redraft reqId specTokenIds rfl)
    removed added _ tracks1 freed1 left.handing fresh adds
  obtain ⟨tracks3, ⟨rest, empty, closed⟩, -⟩ := condense_spec
    handing_invariant tracks2 handing freed2 condenses
  obtain ⟨tracks4, fits⟩ := swapAll_spec
    (P := fun _ batch requests' =>
      IndexMap batch.reqPromptEmbeds (requests'.map some) (fun request => request.promptEmbeds) ↔
        EmbedsHandedOver requests step)
    (fun _ batch requests' i j batch' boundI boundJ _ same done => by
      obtain ⟨_, _, _, _, _, _, _, -, -, -, -, -, -, -, rfl⟩ := swapStates_cases done
      exact (IndexMap.exchanged_iff boundI boundJ).trans same)
    step.swaps condensed swapped _ tracks3 (closed.fits_iff empty) swaps
  have after := refresh_idle tracks4 refreshes
  refine ⟨after, ?_⟩
  have embeds : batch'.reqPromptEmbeds = swapped.reqPromptEmbeds := by
    obtain ⟨_, _, rfl, -⟩ := refreshMetadata_cases refreshes
    rfl
  rw [← fits]
  constructor
  · intro next
    rw [← embeds]
    exact next.embeds
  · intro shown
    constructor
    · rw [numReqs_eq after.tracks.named, occupied, reduceOption_map_some]
      rfl
    · exact after.tracks
    · rw [embeds]
      exact shown

/-- Every step of a run meets a condition on the requests before it. -/
def AlongRun (condition : List (LiveRequest Num) → WorkerStep Num → Prop) :
    List (LiveRequest Num) → List (WorkerStep Num) → Prop
  | _, [] => True
  | requests, step :: rest =>
    condition requests step ∧ AlongRun condition (stepRequests requests step) rest

omit [DecidableLT Num] in
theorem init_idle (config : BatchConfig Num) : Idle (InputBatch.init config) [] := by
  have nobody (request : CachedRequestState Num) : ¬ Holds ([] : Table Num) request := by
    rintro ⟨i, live, sits, -⟩
    simp [seat] at sits
  have ids (wanted : CachedRequestState Num → Prop) : IdSet ∅ ([] : Table Num) wanted := by
    intro reqId
    simp [nobody]
  constructor
  · constructor
    · constructor
      · rfl
      · rfl
      · exact Nat.zero_le _
      · intro i inside
        have within : i < config.maxNumReqs := by simpa [InputBatch.init] using inside
        show (replicate config.maxNumReqs [])[i]? = _
        rw [getElem?_replicate, if_pos within]
        rfl
      · exact nodup_nil
      · simp [InputBatch.init, seat]
    · intro i live sits
      simp [seat] at sits
    · exact fun i => rfl
    · exact fun i => rfl
    · refine ⟨ids _, ids _, ids _, ids _, ids _, ids _, ids _, ids _, ?_, ?_⟩
      · intro reqId v
        simp [InputBatch.init, nobody]
      · intro reqId member
        exact absurd member not_mem_nil
    · constructor
      · simp [InputBatch.init, nobody]
      · simp [InputBatch.init]
      · exact fun loraId => rfl
  · rfl
  · rfl
  · rfl
  · rfl

omit [DecidableLT Num] in
theorem init_follows (config : BatchConfig Num) : Follows (InputBatch.init config) [] :=
  ⟨rfl, (init_idle config).tracks, fun _ => rfl⟩

theorem runFrom_follows_iff (steps : List (WorkerStep Num)) (start batch : InputBatch Num)
    (requests : List (LiveRequest Num)) (idle : Idle start requests)
    (follows : Follows start requests) (fresh : AlongRun StepFresh requests steps)
    (ran : steps.foldlM InputBatch.workerStep start = some batch) :
    (∀ before after reached, steps = before ++ after →
      before.foldlM InputBatch.workerStep start = some reached →
      Follows reached (before.foldl stepRequests requests)) ↔
    AlongRun EmbedsHandedOver requests steps := by
  induction steps generalizing start requests with
  | nil =>
    refine iff_of_true ?_ trivial
    intro before after reached split prefixRan
    obtain ⟨rfl, -⟩ := append_eq_nil_iff.mp split.symm
    obtain rfl : start = reached := some.inj prefixRan
    exact follows
  | cons step steps ih =>
    obtain ⟨next, one, rest⟩ := bind_eq_some_iff.mp ran
    obtain ⟨idleNext, handed⟩ := step_follows_iff idle follows fresh.1 one
    constructor
    · intro everywhere
      have first : Follows next (stepRequests requests step) :=
        everywhere [step] steps next rfl (by rw [foldlM_cons, one]; rfl)
      refine ⟨handed.mp first, (ih next _ idleNext first fresh.2 rest).mp ?_⟩
      intro before after reached split prefixRan
      exact everywhere (step :: before) after reached (by rw [split, cons_append])
        (by rw [foldlM_cons, one]; exact prefixRan)
    · rintro ⟨now, later⟩ before after reached split prefixRan
      have first := handed.mpr now
      cases before with
      | nil =>
        obtain rfl : start = reached := some.inj prefixRan
        exact follows
      | cons head before =>
        obtain ⟨rfl, shorter⟩ := cons.inj split
        rw [foldlM_cons, one] at prefixRan
        exact (ih next _ idleNext first fresh.2 rest).mpr later before after reached shorter
          prefixRan

/-- In a run of worker steps the batch follows its requests in every state reached exactly when
every step hands the embeddings over. -/
theorem run_follows_iff (config : BatchConfig Num) (steps : List (WorkerStep Num))
    (batch : InputBatch Num) (ran : InputBatch.run config steps = some batch)
    (fresh : AlongRun StepFresh [] steps) :
    (∀ before after reached, steps = before ++ after →
      InputBatch.run config before = some reached →
      (runRequests before).Perm (liveRequests before) ∧ Follows reached (runRequests before)) ↔
    AlongRun EmbedsHandedOver [] steps := by
  rw [← runFrom_follows_iff steps (InputBatch.init config) batch [] (init_idle config)
    (init_follows config) fresh ran]
  constructor
  · intro everywhere before after reached split prefixRan
    exact (everywhere before after reached split prefixRan).2
  · intro everywhere before after reached split prefixRan
    exact ⟨runRequests_perm before [] [] (List.Perm.refl _),
      everywhere before after reached split prefixRan⟩

end Steps

/-! Two short runs. -/

def plainParams : SamplingParams Int where
  samplingType := .random
  temperature := 1
  topP := 1
  topK := 0
  minP := 0
  frequencyPenalty := 0
  presencePenalty := 0
  repetitionPenalty := 1
  logprobs := none
  allowedTokenIds := none
  badWordsTokenIds := none
  logitBias := none
  minTokens := 0
  allStopTokenIds := []

def smallBatch : BatchConfig Int where
  maxNumReqs := 4
  maxModelLen := 8
  vocabSize := 4
  blockTables := [(1, 4)]
  float32 := id
  unset := 0

def embeddedRequest : CachedRequestState Int where
  reqId := 1
  promptTokenIds := none
  promptEmbeds := some [[7]]
  samplingParams := plainParams
  generator := none
  blockIds := [[1]]
  numComputedTokens := 0
  outputTokenIds := 10
  loraRequest := none
  described := rfl

def textRequest : CachedRequestState Int where
  reqId := 2
  promptTokenIds := some [5, 6]
  promptEmbeds := none
  samplingParams := plainParams
  generator := none
  blockIds := [[2]]
  numComputedTokens := 0
  outputTokenIds := 20
  loraRequest := none
  described := rfl

def addsOnly (removed : List ReqId) (requests : List (CachedRequestState Int)) : WorkerStep Int where
  heap := fun _ => []
  removed
  added := requests.map .addRequest
  swaps := []

/-- A text request takes the slot of a request with prompt embeddings. -/
def replacedRun : List (WorkerStep Int) := [addsOnly [] [embeddedRequest], addsOnly [1] [textRequest]]

/-- The entry of the removed request now stands for a request without embeddings. -/
theorem replacedRun_not_follows :
    ∃ batch, InputBatch.run smallBatch replacedRun = some batch ∧
      AlongRun StepFresh [] replacedRun ∧ ¬ Follows batch (runRequests replacedRun) := by
  have entry : (InputBatch.run smallBatch replacedRun).map
      (fun batch => batch.reqPromptEmbeds.get? 0) = some (some [[7]]) := by decide
  obtain ⟨batch, ran, stale⟩ := map_eq_some_iff.mp entry
  refine ⟨batch, ran, ⟨⟨by decide, trivial⟩, ⟨by decide, trivial⟩, trivial⟩, ?_⟩
  intro follows
  have shown := follows.embeds 0
  rw [stale] at shown
  revert shown
  decide

def embeddedAgain : CachedRequestState Int :=
  { embeddedRequest with reqId := 3, promptEmbeds := some [[8]], described := rfl }

/-- A request with prompt embeddings takes the slot of another one. -/
def handedRun : List (WorkerStep Int) :=
  [addsOnly [] [embeddedRequest, textRequest], addsOnly [1] [embeddedAgain]]

theorem handedRun_follows :
    ∃ batch, InputBatch.run smallBatch handedRun = some batch ∧
      Follows batch (runRequests handedRun) := by
  have started : (InputBatch.run smallBatch handedRun).isSome = true := by decide
  obtain ⟨batch, ran⟩ := isSome_iff_exists.mp started
  have fresh : AlongRun StepFresh [] handedRun :=
    ⟨⟨by decide, by decide, trivial⟩, ⟨by decide, trivial⟩, trivial⟩
  have handed : AlongRun EmbedsHandedOver [] handedRun := by
    refine ⟨?_, ?_, trivial⟩
    · intro i left
      exact absurd rfl left
    · intro i left
      match i with
      | 0 => exact ⟨⟨embeddedAgain, [], []⟩, rfl, by decide⟩
      | 1 => exact absurd rfl left
  exact ⟨batch, ran, ((run_follows_iff smallBatch handedRun batch ran fresh).mpr handed handedRun []
    batch (append_nil handedRun).symm ran).2⟩

end VllmDcu.BatchRun

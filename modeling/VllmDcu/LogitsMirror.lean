import Mathlib.Algebra.Field.Rat
import VllmDcu.BatchRun
import VllmDcu.LogitsReplay

/-! The logits processors mirror the batch. They see the log of a step only: an index
that was refilled is not among the removed ones any more, and the indices that are
removed for good lie beyond the batch, so that removals and moves do not meet. -/
namespace VllmDcu.LogitsMirror
open Requests (Token ReqId)
open LogitsProcessors PersistentBatch Slots BatchSlots BatchTracks BatchMoves BatchRun
open SlotReplay LogitsReplay List Option Function
variable {Num Entry : Type}

/-- The entry of a request whose output is still too short. -/
def pending (heap : Heap) (request : CachedRequestState Num) : Option MinTokensState :=
  if (heap request.outputTokenIds).length < request.samplingParams.minTokens then
    some {
      minToks := request.samplingParams.minTokens
      outputTokIds := request.outputTokenIds
      stopTokIds := request.samplingParams.allStopTokenIds }
  else none

section Mirroring
variable [Zero Num] [DecidableEq Num]

/-- Every processor holds what the live requests at their indices give, and nothing else. -/
structure Mirrors (heap : Heap) (batch : InputBatch Num) (requests : List (LiveRequest Num)) :
    Prop where
  index : batch.reqIds = requests.map fun live => some live.reqId
  logitBias : ∀ i, batch.logitsprocs.logitBias.biases.get? i =
    requests[i]?.bind fun live => orNone live.request.samplingParams.logitBias
  minTokens : ∀ i, batch.logitsprocs.minTokens.minToks.get? i =
    requests[i]?.bind fun live => pending heap live.request
  minP : ∀ i, batch.logitsprocs.minP.minPCpu i =
    requests[i]?.elim 0 fun live => batch.config.float32 live.request.samplingParams.minP
  minPCount : batch.logitsprocs.minP.minPCount =
    (requests.countP fun live => decide (live.request.samplingParams.minP ≠ 0) : Nat)

/-! The condition. -/

/-- No min-p that is not zero is rounded to zero, and the output of a request that stays does not
fall below a length it had attained. -/
structure StepExact (float32 : Num → Num) (heap : Heap) (requests : List (LiveRequest Num))
    (step : WorkerStep Num) : Prop where
  minP : ∀ request, .addRequest request ∈ step.added →
    request.samplingParams.minP ≠ 0 → float32 request.samplingParams.minP ≠ 0
  outputs : ∀ live ∈ requests, live.reqId ∉ step.removed →
    live.request.samplingParams.minTokens ≤ (heap live.request.outputTokenIds).length →
    live.request.samplingParams.minTokens ≤ (step.heap live.request.outputTokenIds).length

def RunExact (float32 : Num → Num) : Heap → List (LiveRequest Num) → List (WorkerStep Num) → Prop
  | _, _, [] => True
  | heap, requests, step :: rest =>
    StepExact float32 heap requests step ∧
      RunExact float32 step.heap (stepRequests requests step) rest

end Mirroring

/-! The replay of a step. -/

/-- A phase leaves the processors and the configuration alone. -/
structure Framed (start batch : InputBatch Num) : Prop where
  config : batch.config = start.config
  logitsprocs : batch.logitsprocs = start.logitsprocs

variable (batch batch' : InputBatch Num)

theorem removeRequest_log {reqId : ReqId} {result : Option Nat}
    (removed : batch.removeRequest reqId = some (result, batch')) :
    Framed batch batch' ∧ batch'.batchUpdateBuilder.added = batch.batchUpdateBuilder.added ∧
      batch'.batchUpdateBuilder.moved = batch.batchUpdateBuilder.moved := by
  rcases removeRequest_cases reqId result batch' removed with
    ⟨-, rfl⟩ | ⟨i, builder, unadapted, -, appended, dropped, rfl⟩
  · exact ⟨⟨rfl, rfl⟩, rfl, rfl⟩
  · obtain ⟨_, _, rfl, -, -⟩ := dropLora_cases reqId dropped
    unfold BatchUpdateBuilder.removedAppend at appended
    split at appended
    · contradiction
    · obtain rfl := some.inj appended
      exact ⟨⟨rfl, rfl⟩, rfl, rfl⟩

theorem moveRequest_log (last empty : Nat) (done : batch.moveRequest last empty = some batch') :
    Framed batch batch' ∧ batch'.batchUpdateBuilder.added = batch.batchUpdateBuilder.added ∧
      batch'.batchUpdateBuilder.moved =
        batch.batchUpdateBuilder.moved ++ [⟨last, empty, .unidirectional⟩] := by
  obtain ⟨_, _, _, -, -, -, rfl⟩ := moveRequest_cases done
  exact ⟨⟨rfl, rfl⟩, rfl, rfl⟩

theorem swapStates_log (i j : Nat) (done : batch.swapStates i j = some batch') :
    Framed batch batch' ∧ batch'.batchUpdateBuilder.added = batch.batchUpdateBuilder.added ∧
      batch'.batchUpdateBuilder.moved = batch.batchUpdateBuilder.moved ++ [⟨i, j, .swap⟩] ∧
      batch'.batchUpdateBuilder.removedList = batch.batchUpdateBuilder.removedList := by
  obtain ⟨_, _, _, _, _, _, _, -, -, -, -, -, -, -, rfl⟩ := swapStates_cases done
  exact ⟨⟨rfl, rfl⟩, rfl, rfl, rfl⟩

theorem Framed.trans {first second third : InputBatch Num} (start : Framed first second)
    (next : Framed second third) : Framed first third :=
  ⟨next.config.trans start.config, next.logitsprocs.trans start.logitsprocs⟩

section Replaying
variable (blank : Entry) (newEntry : AddedRequest Num → Entry)
  (Shows : LiveRequest Num → Entry → Prop)

def grownBy (entries : Nat → Entry) (batch : InputBatch Num) : Nat → Entry :=
  grow entries (batch.batchUpdateBuilder.added.map (addition newEntry))

/-- While requests are added, an occupied slot has its entry and a free one what was there. -/
structure Adding (start : InputBatch Num) (step : WorkerStep Num) (entries : Nat → Entry)
    (rest : List (AddOp Num)) (batch : InputBatch Num) (slots : Table Num) : Prop where
  framed : Framed start batch
  moved : batch.batchUpdateBuilder.moved = []
  seated : ∀ i live, seat slots i = some live → Shows live (grownBy newEntry entries batch i)
  beyond : ∀ i, slots.length ≤ i → grownBy newEntry entries batch i = blank
  coming : ∀ op ∈ rest, op ∈ step.added
  asked : ∀ added ∈ batch.batchUpdateBuilder.added, ∃ request,
    .addRequest request ∈ step.added ∧ added.params = request.samplingParams

def movedBy (entries : Nat → Entry) (batch : InputBatch Num) : Nat → Entry :=
  (batch.batchUpdateBuilder.moved.map moveOf).foldl (transfer blank) entries

/-- While requests are moved, the free indices beyond the new size are blank. -/
structure Moving (start : InputBatch Num) (log : List (AddedRequest Num)) (size : Nat)
    (entries : Nat → Entry) (batch : InputBatch Num) (slots : Table Num) : Prop where
  framed : Framed start batch
  added : batch.batchUpdateBuilder.added = log
  occupied : occupied slots = size
  seated : ∀ i live, seat slots i = some live → Shows live (movedBy blank entries batch i)
  beyond : ∀ i, size ≤ i → seat slots i = none → movedBy blank entries batch i = blank
  apart : ∀ move ∈ batch.batchUpdateBuilder.moved, move.direct = .unidirectional →
    move.source ≠ move.target

theorem movedBy_log {entries : Nat → Entry} {batch batch' : InputBatch Num} {move : MovedRequest}
    (logged : batch'.batchUpdateBuilder.moved = batch.batchUpdateBuilder.moved ++ [move]) :
    movedBy blank entries batch' = transfer blank (movedBy blank entries batch) (moveOf move) := by
  unfold movedBy
  rw [logged, map_append, foldl_append]
  rfl

variable {blank newEntry Shows}

theorem Adding.place [Zero Num] [One Num] [LT Num] [DecidableLT Num] [DecidableEq Num]
    {start batch batch' : InputBatch Num} {step : WorkerStep Num} {entries : Nat → Entry}
    {rest : List (AddOp Num)} {slots : Table Num} {request : CachedRequestState Num}
    (adding : Adding blank newEntry Shows start step entries (.addRequest request :: rest) batch slots)
    (tracks : Tracks batch slots) (freed : Freed batch.batchUpdateBuilder slots) (index : Nat)
    (new : Shows ⟨request, step.heap request.outputTokenIds, []⟩
      (newEntry ⟨newSlot slots, request.samplingParams, request.promptTokenIds,
        request.outputTokenIds⟩))
    (added : batch.addRequest request step.heap = some (index, batch')) :
    Adding blank newEntry Shows start step entries rest batch'
      (Slots.place slots ⟨request, step.heap request.outputTokenIds, []⟩) := by
  obtain ⟨rfl, -, additions, moves, -, -, config, logitsprocs, -⟩ :=
    addRequest_frame tracks freed request step.heap index added
  have written : grownBy newEntry entries batch' =
      update (grownBy newEntry entries batch) (newSlot slots)
        (newEntry ⟨newSlot slots, request.samplingParams, request.promptTokenIds,
          request.outputTokenIds⟩) := by
    unfold grownBy
    rw [additions, map_append]
    exact grow_append _ _ _ _
  have asked : .addRequest request ∈ step.added := adding.coming _ mem_cons_self
  constructor
  · exact ⟨config.trans adding.framed.config, logitsprocs.trans adding.framed.logitsprocs⟩
  · exact moves.trans adding.moved
  · intro i live sits
    rw [seat_newcomer] at sits
    rw [written]
    by_cases here : i = newSlot slots
    · subst here
      rw [if_pos rfl] at sits
      obtain rfl := some.inj sits
      rw [update_self]
      exact new
    · rw [if_neg here] at sits
      rw [update_of_ne here]
      exact adding.seated i live sits
  · intro i outside
    have here : i ≠ newSlot slots := by
      have sits := seat_newcomer slots ⟨request, step.heap request.outputTokenIds, []⟩
        (newSlot slots)
      rw [if_pos rfl] at sits
      have bound := seat_bound _ _ _ sits
      omega
    rw [written, update_of_ne here]
    apply adding.beyond
    unfold Slots.place at outside
    split at outside
    · rwa [length_set] at outside
    · rw [length_append] at outside
      omega
  · exact fun op member => adding.coming op (mem_cons_of_mem _ member)
  · intro one member
    rw [additions, mem_append, mem_singleton] at member
    rcases member with before | rfl
    · exact adding.asked one before
    · exact ⟨request, asked, rfl⟩

theorem Adding.redraft {start batch batch' : InputBatch Num} {step : WorkerStep Num}
    {entries : Nat → Entry} {rest : List (AddOp Num)} {slots : Table Num} {reqId : ReqId}
    {specTokenIds : List Token}
    (adding : Adding blank newEntry Shows start step entries
      (.updateReqSpecTokenIds reqId specTokenIds :: rest) batch slots)
    (drafts : ∀ live entry, Shows live entry → Shows (live.redraft reqId specTokenIds) entry)
    (updated : batch.updateReqSpecTokenIds reqId specTokenIds = some batch') :
    Adding blank newEntry Shows start step entries rest batch'
      (slots.map (Option.map (LiveRequest.redraft reqId specTokenIds))) := by
  obtain ⟨_, _, rfl⟩ := updateReqSpecTokenIds_frame updated
  constructor
  · exact ⟨adding.framed.config, adding.framed.logitsprocs⟩
  · exact adding.moved
  · intro i live sits
    rw [seat_map] at sits
    obtain ⟨other, seated, rfl⟩ := map_eq_some_iff.mp sits
    exact drafts other _ (adding.seated i other seated)
  · intro i outside
    rw [length_map] at outside
    exact adding.beyond i outside
  · exact fun op member => adding.coming op (mem_cons_of_mem _ member)
  · exact adding.asked

theorem moving_invariant [Zero Num] [One Num] [LT Num] {start : InputBatch Num}
    {log : List (AddedRequest Num)} {size : Nat} {entries : Nat → Entry} :
    LoopInvariant (Moving blank Shows start log size entries) := by
  constructor
  · intro batch slots builder moving additions moves
    have same : movedBy blank entries { batch with batchUpdateBuilder := builder } =
        movedBy blank entries batch := by
      unfold movedBy
      rw [moves]
    constructor
    · exact ⟨moving.framed.config, moving.framed.logitsprocs⟩
    · exact additions.trans moving.added
    · exact moving.occupied
    · intro i live sits
      rw [same]
      exact moving.seated i live sits
    · intro i outside free
      rw [same]
      exact moving.beyond i outside free
    · intro move member
      exact moving.apart move (moves ▸ member)
  · intro batch slots last empty live batch' _ moving movable lowest below beyond moved
    obtain ⟨-, -, different, -⟩ := movable.bounds
    obtain ⟨framed, additions, logged⟩ := moveRequest_log batch batch' last empty moved
    have carried (i : Nat) : movedBy blank entries batch' i = if i = last then blank
        else if i = empty then movedBy blank entries batch last
        else movedBy blank entries batch i := by
      rw [movedBy_log blank logged]
      exact transfer_apply blank (movedBy blank entries batch) last empty i different
    constructor
    · exact moving.framed.trans framed
    · exact additions.trans moving.added
    · exact (relocate_perm slots movable.sits movable.free).length_eq.trans
        moving.occupied
    · intro i other sits
      rw [seat_moved movable] at sits
      rw [carried]
      split at sits
      · contradiction
      · rename_i notLast
        rw [if_neg notLast]
        split at sits
        · rename_i atEmpty
          obtain rfl := some.inj sits
          rw [if_pos atEmpty]
          exact moving.seated last live movable.sits
        · rename_i notEmpty
          rw [if_neg notEmpty]
          exact moving.seated i other sits
    · intro i outside free
      rw [seat_moved movable] at free
      rw [carried]
      by_cases atLast : i = last
      · rw [if_pos atLast]
      · rw [if_neg atLast] at free ⊢
        by_cases atEmpty : i = empty
        · rw [if_pos atEmpty] at free
          contradiction
        · rw [if_neg atEmpty] at free ⊢
          exact moving.beyond i outside free
    · intro move member
      rw [logged] at member
      rcases mem_append.mp member with before | one
      · exact moving.apart move before
      · obtain rfl := mem_singleton.mp one
        exact fun _ => different
  · intro batch slots n moving
    exact ⟨⟨moving.framed.config, moving.framed.logitsprocs⟩, moving.added, moving.occupied,
      moving.seated, moving.beyond, moving.apart⟩

theorem Moving.swap {start batch batch' : InputBatch Num} {log : List (AddedRequest Num)}
    {size : Nat} {entries : Nat → Entry} {requests : List (LiveRequest Num)}
    (moving : Moving blank Shows start log size entries batch (requests.map some)) (i j : Nat)
    (boundI : i < requests.length) (boundJ : j < requests.length)
    (swapped : batch.swapStates i j = some batch') :
    Moving blank Shows start log size entries batch' ((exchange requests i j).map some) ∧
      batch'.batchUpdateBuilder.removedList = batch.batchUpdateBuilder.removedList := by
  obtain ⟨framed, additions, logged, removed⟩ := swapStates_log batch batch' i j swapped
  have carried (k : Nat) :
      movedBy blank entries batch' k = movedBy blank entries batch (exchanged i j k) := by
    rw [movedBy_log blank logged]
    refine (transfer_exchange blank (movedBy blank entries batch) i j k).trans ?_
    unfold exchanged
    split
    · rfl
    · split <;> rfl
  refine ⟨?_, removed⟩
  constructor
  · exact moving.framed.trans framed
  · exact additions.trans moving.added
  · have before := moving.occupied
    unfold Slots.occupied at before ⊢
    rw [reduceOption_map_some] at before ⊢
    rw [exchange_length]
    exact before
  · intro k live sits
    rw [seat_exchange boundI boundJ, ← seat_map_some] at sits
    rw [carried]
    exact moving.seated _ live sits
  · intro k outside free
    rw [seat_exchange boundI boundJ, ← seat_map_some] at free
    rw [carried]
    apply moving.beyond _ ?_ free
    have within := exchanged_bound i j k requests.length boundI boundJ
    have before := moving.occupied
    unfold Slots.occupied at before
    rw [reduceOption_map_some] at before
    omega
  · intro move member
    rw [logged] at member
    rcases mem_append.mp member with before | one
    · exact moving.apart move before
    · obtain rfl := mem_singleton.mp one
      exact fun direct => absurd direct (by simp)

theorem replayUpdate_getAndReset (blank : Entry) (newEntry : AddedRequest Num → Entry)
    (entries : Nat → Entry) (builder : BatchUpdateBuilder Num) (batchSize : Nat) :
    replayUpdate blank newEntry entries (builder.getAndReset batchSize).1 =
      replay blank entries (builder.added.map (addition newEntry)) builder.removedList
        (builder.moved.map moveOf) := by
  unfold BatchUpdateBuilder.getAndReset
  split
  · rename_i bare
    simp only [Bool.and_eq_true, List.isEmpty_iff] at bare
    rw [bare.1.1, bare.1.2, bare.2]
    rfl
  · rfl

theorem getAndReset_log {builder : BatchUpdateBuilder Num} {batchSize : Nat}
    {update : BatchUpdate Num} (made : (builder.getAndReset batchSize).1 = some update) :
    update.added = builder.added ∧ update.moved = builder.moved := by
  unfold BatchUpdateBuilder.getAndReset at made
  split at made
  · contradiction
  · obtain rfl := some.inj made
    exact ⟨rfl, rfl⟩

variable (blank newEntry Shows)

/-- The log of a whole step, replayed on what an index showed before it, shows the requests after
it. -/
theorem step_replays [Zero Num] [One Num] [LT Num] [DecidableLT Num] [DecidableEq Num]
    {batch removed added condensed swapped : InputBatch Num} {requests : List (LiveRequest Num)}
    (idle : Idle batch requests) {step : WorkerStep Num} (fresh : StepFresh requests step)
    (removes : batch.removeAll step.removed = some removed)
    (adds : removed.addAll step.heap step.added = some added)
    (condenses : added.condense = some condensed)
    (swaps : condensed.swapAll step.swaps = some swapped) (entries : Nat → Entry)
    (kept : ∀ i live, requests[i]? = some live → live.reqId ∉ step.removed → Shows live (entries i))
    (beyond : ∀ i, requests.length ≤ i → entries i = blank)
    (new : ∀ request index, .addRequest request ∈ step.added →
      Shows ⟨request, step.heap request.outputTokenIds, []⟩ (newEntry ⟨index,
        request.samplingParams, request.promptTokenIds, request.outputTokenIds⟩))
    (drafts : ∀ live entry reqId specTokenIds, Shows live entry →
      Shows (live.redraft reqId specTokenIds) entry) :
    Framed batch swapped ∧ Tracks swapped ((stepRequests requests step).map some) ∧
      (∀ i live, (stepRequests requests step)[i]? = some live →
        Shows live (replayUpdate blank newEntry entries
          (swapped.batchUpdateBuilder.getAndReset swapped.numReqs).1 i)) ∧
      (∀ i, (stepRequests requests step).length ≤ i →
        replayUpdate blank newEntry entries
          (swapped.batchUpdateBuilder.getAndReset swapped.numReqs).1 i = blank) ∧
      (∀ one ∈ swapped.batchUpdateBuilder.added, ∃ request,
        .addRequest request ∈ step.added ∧ one.params = request.samplingParams) ∧
      ∀ move ∈ swapped.batchUpdateBuilder.moved, move.direct = .unidirectional →
        move.source ≠ move.target := by
  classical
  obtain ⟨tracks1, freed1, framed1, unadded, unmoved⟩ := removeAll_spec
    (P := fun batch' _ => Framed batch batch' ∧ batch'.batchUpdateBuilder.added = [] ∧
      batch'.batchUpdateBuilder.moved = []) step.removed
    (fun _ _ _ live after result _ _ _ held _ done => by
      obtain ⟨framed, additions, moves⟩ := removeRequest_log _ after done
      exact ⟨held.1.trans framed, additions.trans held.2.1, moves.trans held.2.2⟩)
    batch removed _ idle.tracks idle.freed ⟨⟨rfl, rfl⟩, idle.added, idle.moved⟩ removes
  have start : Adding blank newEntry Shows batch step entries step.added removed
      (step.removed.foldl vacate (requests.map some)) := by
    have grown : grownBy newEntry entries removed = entries := by
      unfold grownBy
      rw [unadded]
      rfl
    constructor
    · exact framed1
    · exact unmoved
    · intro i live sits
      obtain ⟨before, stays⟩ := (seat_vacateAll_iff _).mp sits
      rw [seat_map_some] at before
      rw [grown]
      exact kept i live before stays
    · intro i outside
      rw [vacateAll_length, length_map] at outside
      rw [grown]
      exact beyond i outside
    · exact fun op member => member
    · rw [unadded]
      exact fun one member => absurd member not_mem_nil
  obtain ⟨tracks2, freed2, settled⟩ := addAll_spec
    (P := Adding blank newEntry Shows batch step entries) step.heap step.added
    (fun _ _ _ request index _ tracks freed adding _ done =>
      adding.place tracks freed index (new request _ (adding.coming _ mem_cons_self)) done)
    (fun _ _ _ _ _ _ _ adding done => adding.redraft (fun live entry => drafts live entry _ _) done)
    removed added _ tracks1 freed1 start fresh adds
  -- The indices that stay removed can be cleared before the moves.
  let cleared : Nat → Entry := fun i =>
    if occupied (settle requests step) ≤ i ∧ (settle requests step)[i]? = some none then blank
    else grownBy newEntry entries added i
  have starting : movedBy blank cleared added = cleared := by
    unfold movedBy
    rw [settled.moved]
    rfl
  have entering : Moving blank Shows batch added.batchUpdateBuilder.added
      (occupied (settle requests step)) cleared added (settle requests step) := by
    constructor
    · exact settled.framed
    · rfl
    · rfl
    · intro i live sits
      rw [starting]
      show Shows live (if _ then _ else _)
      rw [if_neg (by
        rintro ⟨-, free⟩
        rw [(seat_eq_some _ i live).mp sits] at free
        exact absurd (some.inj free) (by simp))]
      exact settled.seated i live sits
    · intro i outside free
      rw [starting]
      show (if _ then _ else _) = blank
      by_cases hole : (settle requests step)[i]? = some none
      · rw [if_pos ⟨outside, hole⟩]
      · rw [if_neg (fun both => hole both.2)]
        apply settled.beyond
        by_contra short
        have inside : i < (settle requests step).length := Nat.lt_of_not_le short
        have found := getElem?_eq_getElem inside
        cases content : (settle requests step)[i] with
        | none => exact hole (by rw [found, content])
        | some live =>
          rw [content] at found
          rw [(seat_eq_some _ i live).mpr found] at free
          contradiction
    · rw [settled.moved]
      exact fun move member => absurd member not_mem_nil
  obtain ⟨tracks3, ⟨rest, empty, closed⟩, left⟩ := condense_spec
    moving_invariant tracks2 entering freed2 condenses
  have dense : Moving blank Shows batch added.batchUpdateBuilder.added
      (occupied (settle requests step)) cleared condensed
      ((closeGaps (settle requests step)).map some) := by
    have seats (i : Nat) : seat ((closeGaps (settle requests step)).map some) i =
        seat ((closeGaps (settle requests step)).map some ++ rest) i := by
      rw [seat_append_free _ rest empty, seat_map_some]
    constructor
    · exact closed.framed
    · exact closed.added
    · rw [occupied, reduceOption_map_some, closeGaps_length]
    · intro i live sits
      rw [seats] at sits
      exact closed.seated i live sits
    · intro i outside free
      rw [seats] at free
      exact closed.beyond i outside free
    · exact closed.apart
  obtain ⟨tracks4, reordered, unread⟩ := swapAll_spec
    (P := fun _ batch' requests' =>
      Moving blank Shows batch added.batchUpdateBuilder.added (occupied (settle requests step))
        cleared batch' (requests'.map some) ∧
      batch'.batchUpdateBuilder.removedList = condensed.batchUpdateBuilder.removedList)
    (fun _ _ _ i j _ boundI boundJ _ held done => by
      obtain ⟨moving, same⟩ := held.1.swap i j boundI boundJ done
      exact ⟨moving, same.trans held.2⟩)
    step.swaps condensed swapped _ tracks3 ⟨dense, rfl⟩ swaps
  have length : (stepRequests requests step).length = occupied (settle requests step) :=
    (reorder_perm _ step.swaps).length_eq.trans (closeGaps_length _)
  have replayed : replayUpdate blank newEntry entries
      (swapped.batchUpdateBuilder.getAndReset swapped.numReqs).1 = movedBy blank cleared swapped := by
    rw [replayUpdate_getAndReset, reordered.added, unread]
    unfold replay movedBy
    congr 1
    funext i
    rw [clear_apply]
    have listed := left i
    rw [closeGaps_length] at listed
    exact if_congr listed rfl rfl
  rw [replayed]
  refine ⟨reordered.framed, tracks4, ?_, ?_, ?_, reordered.apart⟩
  · intro i live sits
    exact reordered.seated i live ((seat_map_some _ i).trans sits)
  · intro i outside
    apply reordered.beyond i (by omega)
    rw [seat_map_some]
    exact getElem?_eq_none outside
  · rw [reordered.added]
    exact settled.asked

end Replaying

/-! Each processor after a step. -/

/-- Seen from the heap of the next step, an entry shows a request when it is that of the request
or has been attained meanwhile. -/
def ShowsPending (heap : Heap) (live : LiveRequest Num) (entry : Option MinTokensState) : Prop :=
  (entry.filter fun state => !MinTokensLogitsProcessor.attained heap state) =
    pending heap live.request

theorem addRequest_pending (heap : Heap) (request : CachedRequestState Num) (index : Nat) :
    MinTokensLogitsProcessor.addRequest heap ⟨index, request.samplingParams,
      request.promptTokenIds, request.outputTokenIds⟩ = pending heap request := by
  unfold MinTokensLogitsProcessor.addRequest pending
  by_cases short : (heap request.outputTokenIds).length < request.samplingParams.minTokens
  · rw [if_pos short, if_neg (by simp only; omega)]
  · rw [if_neg short, if_pos (by simp only; omega)]

theorem pending_filter {before heap : Heap} {request : CachedRequestState Num}
    (grows : request.samplingParams.minTokens ≤ (before request.outputTokenIds).length →
      request.samplingParams.minTokens ≤ (heap request.outputTokenIds).length) :
    ((pending before request).filter fun state =>
      !MinTokensLogitsProcessor.attained heap state) = pending heap request := by
  unfold pending
  by_cases short : (before request.outputTokenIds).length < request.samplingParams.minTokens
  · rw [if_pos short, filter_some]
    unfold MinTokensLogitsProcessor.attained
    by_cases still : (heap request.outputTokenIds).length < request.samplingParams.minTokens
    · rw [if_pos still, if_pos (by simpa using still)]
    · rw [if_neg still, if_neg (by simpa using still)]
  · rw [if_neg short, if_neg (by omega)]
    rfl

section Steps
variable [Zero Num] [DecidableEq Num]

/-- The count that the requests of a list call for. -/
theorem counted_requests {float32 : Num → Num} (zero : float32 0 = 0)
    {requests : List (LiveRequest Num)}
    (exact : ∀ live ∈ requests, live.request.samplingParams.minP ≠ 0 →
      float32 live.request.samplingParams.minP ≠ 0) :
    Counted 0 ((requests.countP fun live => decide (live.request.samplingParams.minP ≠ 0) : Nat) : Int)
      (fun i => requests[i]?.elim 0 fun live => float32 live.request.samplingParams.minP) := by
  induction requests using reverseRecOn with
  | nil => exact counted_blank 0
  | append_singleton requests live ih =>
    have before := ih (fun other member => exact other (mem_append_left [live] member))
    have written := before.write requests.length (float32 live.request.samplingParams.minP)
    have entries : update
        (fun i => requests[i]?.elim 0 fun live => float32 live.request.samplingParams.minP)
        requests.length (float32 live.request.samplingParams.minP) =
        fun i => (requests ++ [live])[i]?.elim 0 fun live =>
          float32 live.request.samplingParams.minP := by
      funext i
      rw [update_apply]
      by_cases atEnd : i = requests.length
      · subst atEnd
        simp
      · rw [if_neg atEnd, getElem?_append]
        by_cases inside : i < requests.length
        · rw [if_pos inside]
        · rw [if_neg inside, getElem?_eq_none (by omega),
            getElem?_eq_none (by simp only [length_singleton]; omega)]
    rw [entries] at written
    by_cases absent : live.request.samplingParams.minP = 0
    · simpa [absent, zero, weight] using written
    · have stored := exact live (by simp) absent
      simpa [absent, stored, weight] using written

/-- Between two steps the processors mirror the batch, and every min-p has been stored as it
counts. -/
structure Mirrored [One Num] [LT Num] (heap : Heap) (batch : InputBatch Num)
    (requests : List (LiveRequest Num)) : Prop where
  idle : Idle batch requests
  mirrors : Mirrors heap batch requests
  exact : ∀ live ∈ requests, live.request.samplingParams.minP ≠ 0 →
    batch.config.float32 live.request.samplingParams.minP ≠ 0

theorem step_mirrored [One Num] [LT Num] [DecidableLT Num] {heap : Heap}
    {batch batch' : InputBatch Num} {requests : List (LiveRequest Num)}
    (zero : batch.config.float32 0 = 0) (mirrored : Mirrored heap batch requests)
    (step : WorkerStep Num) (fresh : StepFresh requests step)
    (exact : StepExact batch.config.float32 heap requests step)
    (ran : batch.workerStep step = some batch') :
    batch'.config = batch.config ∧ Mirrored step.heap batch' (stepRequests requests step) := by
  obtain ⟨removed, added, condensed, swapped, removes, adds, condenses, swaps, refreshes⟩ :=
    workerStep_cases ran
  obtain ⟨idle, mirrors, stored⟩ := mirrored
  have outside {Value : Type} (i : Nat) (long : requests.length ≤ i)
      (value : LiveRequest Num → Option Value) : requests[i]?.bind value = none := by
    rw [getElem?_eq_none long]
    rfl
  obtain ⟨framed, tracks, bias, noBias, -, -⟩ := step_replays none LogitBiasLogitsProcessor.newState
    (fun live entry => entry = orNone live.request.samplingParams.logitBias)
    idle fresh removes adds condenses swaps batch.logitsprocs.logitBias.biases.get?
    (fun i live sits _ => by rw [mirrors.logitBias, sits, bind_some])
    (fun i long => by rw [mirrors.logitBias, outside i long])
    (fun _ _ _ => rfl)
    (fun live entry reqId specTokenIds shown => by rw [redraft_request]; exact shown)
  obtain ⟨-, -, tokens, noTokens, -, -⟩ := step_replays none
    (MinTokensLogitsProcessor.addRequest step.heap) (ShowsPending step.heap)
    idle fresh removes adds condenses swaps batch.logitsprocs.minTokens.minToks.get?
    (fun i live sits stays => by
      rw [mirrors.minTokens, sits]
      exact pending_filter (exact.outputs live (mem_of_getElem? sits) stays))
    (fun i long => by rw [mirrors.minTokens, outside i long])
    (fun request index _ => by
      rw [addRequest_pending]
      exact pending_filter id)
    (fun live entry reqId specTokenIds shown => by
      unfold ShowsPending at shown ⊢
      rw [redraft_request]
      exact shown)
  obtain ⟨-, -, minP, noMinP, asked, apart⟩ := step_replays (0 : Num)
    (fun added => batch.config.float32 added.params.minP)
    (fun live entry => entry = batch.config.float32 live.request.samplingParams.minP ∧
      (live.request.samplingParams.minP ≠ 0 →
        batch.config.float32 live.request.samplingParams.minP ≠ 0))
    idle fresh removes adds condenses swaps batch.logitsprocs.minP.minPCpu
    (fun i live sits _ => by
      rw [mirrors.minP, sits]
      exact ⟨rfl, stored live (mem_of_getElem? sits)⟩)
    (fun i long => by
      rw [mirrors.minP, getElem?_eq_none long]
      rfl)
    (fun request _ member => ⟨rfl, exact.minP request member⟩)
    (fun live entry reqId specTokenIds shown => by rw [redraft_request]; exact shown)
  have after := refresh_idle tracks refreshes
  obtain ⟨device, samplingMetadata, rfl, -⟩ := refreshMetadata_cases refreshes
  have started : Holding batch.logitsprocs.minP batch.logitsprocs.minP.minPCpu := by
    constructor
    · rfl
    · have counted := counted_requests zero stored
      rw [← mirrors.minPCount] at counted
      have same := funext mirrors.minP
      rwa [← same] at counted
  have holding := minP_holding zero _ started
    (swapped.batchUpdateBuilder.getAndReset swapped.numReqs).1
    (fun update made one member => by
      obtain ⟨additions, -⟩ := getAndReset_log made
      rw [additions] at member
      obtain ⟨request, inStep, params⟩ := asked one member
      rw [params]
      exact exact.minP request inStep)
    (fun update made move member => by
      obtain ⟨-, moves⟩ := getAndReset_log made
      rw [moves] at member
      exact apart move member)
  have later : ∀ live ∈ stepRequests requests step, live.request.samplingParams.minP ≠ 0 →
      batch.config.float32 live.request.samplingParams.minP ≠ 0 := by
    intro live member
    obtain ⟨i, sits⟩ := mem_iff_getElem?.mp member
    exact (minP i live sits).2
  have processors : (swapped.updateLogitsprocs step.heap
      (swapped.batchUpdateBuilder.getAndReset swapped.numReqs).1) =
      batch.updateLogitsprocs step.heap
        (swapped.batchUpdateBuilder.getAndReset swapped.numReqs).1 := by
    unfold InputBatch.updateLogitsprocs
    rw [framed.logitsprocs, framed.config]
  have values (i : Nat) : replayUpdate 0 (fun added => batch.config.float32 added.params.minP)
      batch.logitsprocs.minP.minPCpu
      (swapped.batchUpdateBuilder.getAndReset swapped.numReqs).1 i =
        (stepRequests requests step)[i]?.elim 0 fun live =>
          batch.config.float32 live.request.samplingParams.minP := by
    cases sits : (stepRequests requests step)[i]? with
    | none => exact noMinP i (List.getElem?_eq_none_iff.mp sits)
    | some live => exact (minP i live sits).1
  refine ⟨framed.config, after, ⟨?_, ?_, ?_, ?_, ?_⟩, ?_⟩
  · rw [after.tracks.named.reqIds, List.map_map]
    rfl
  · intro i
    rw [processors]
    refine (congrFun (logitBias_get? _ _ _) i).trans ?_
    cases sits : (stepRequests requests step)[i]? with
    | none => exact noBias i (List.getElem?_eq_none_iff.mp sits)
    | some live => exact bias i live sits
  · intro i
    rw [processors]
    refine (minTokens_get? step.heap _ _ i).trans ?_
    cases sits : (stepRequests requests step)[i]? with
    | none =>
      rw [noTokens i (List.getElem?_eq_none_iff.mp sits)]
      rfl
    | some live => exact tokens i live sits
  · intro i
    rw [processors]
    rw [framed.config]
    exact (congrFun holding.values i).trans (values i)
  · rw [processors]
    have counted := counted_requests zero later
    have same := funext values
    rw [← same] at counted
    exact holding.count.unique counted
  · rw [framed.config]
    exact later

/-- What the output lists hold in the last of some steps. -/
def heapAfter (start : Heap) (steps : List (WorkerStep Num)) : Heap :=
  steps.foldl (fun _ step => step.heap) start

theorem init_mirrored [One Num] [LT Num] (heap : Heap) (config : BatchConfig Num) :
    Mirrored heap (InputBatch.init config) [] := by
  constructor
  · exact init_idle config
  · exact ⟨rfl, fun _ => rfl, fun _ => rfl, fun _ => rfl, rfl⟩
  · exact fun live member => absurd member not_mem_nil

theorem runFrom_mirrors [One Num] [LT Num] [DecidableLT Num] (steps : List (WorkerStep Num))
    (heap : Heap) (start batch : InputBatch Num) (requests : List (LiveRequest Num))
    (zero : start.config.float32 0 = 0) (mirrored : Mirrored heap start requests)
    (fresh : AlongRun StepFresh requests steps)
    (exact : RunExact start.config.float32 heap requests steps)
    (ran : steps.foldlM InputBatch.workerStep start = some batch) :
    ∀ before after reached, steps = before ++ after →
      before.foldlM InputBatch.workerStep start = some reached →
      Mirrors (heapAfter heap before) reached (before.foldl stepRequests requests) := by
  induction steps generalizing heap start requests with
  | nil =>
    intro before after reached split prefixRan
    obtain ⟨rfl, -⟩ := append_eq_nil_iff.mp split.symm
    obtain rfl : start = reached := some.inj prefixRan
    exact mirrored.mirrors
  | cons step steps ih =>
    obtain ⟨next, one, rest⟩ := bind_eq_some_iff.mp ran
    obtain ⟨config, mirroredNext⟩ := step_mirrored zero mirrored step fresh.1 exact.1 one
    intro before after reached split prefixRan
    cases before with
    | nil =>
      obtain rfl : start = reached := some.inj prefixRan
      exact mirrored.mirrors
    | cons head before =>
      obtain ⟨rfl, shorter⟩ := cons.inj split
      rw [foldlM_cons, one] at prefixRan
      exact ih step.heap next _ (by rw [config]; exact zero) mirroredNext fresh.2
        (by rw [config]; exact exact.2) rest before after reached shorter prefixRan

/-- In every state of a run whose steps are exact, the processors mirror the batch. -/
theorem run_processors_mirror [One Num] [LT Num] [DecidableLT Num] (config : BatchConfig Num)
    (zero : config.float32 0 = 0) (steps : List (WorkerStep Num)) (batch : InputBatch Num)
    (ran : InputBatch.run config steps = some batch) (fresh : AlongRun StepFresh [] steps)
    (exact : RunExact config.float32 (fun _ => []) [] steps) :
    ∀ before after reached, steps = before ++ after →
      InputBatch.run config before = some reached →
      Mirrors (heapAfter (fun _ => []) before) reached (runRequests before) :=
  runFrom_mirrors steps _ _ batch [] zero (init_mirrored _ config) fresh exact ran

end Steps

/-! Runs in which a processor loses a request. -/

/-- Values up to half of the least positive 32-bit float are stored as zero. The other values of
the runs are 32-bit floats. -/
def flushed (value : Rat) : Rat :=
  if -(1 / 2 ^ 150) ≤ value ∧ value ≤ 1 / 2 ^ 150 then 0 else value

def ratParams (minP : Rat) : SamplingParams Rat where
  samplingType := .random
  temperature := 1
  topP := 1
  topK := 0
  minP
  frequencyPenalty := 0
  presencePenalty := 0
  repetitionPenalty := 1
  logprobs := none
  allowedTokenIds := none
  badWordsTokenIds := none
  logitBias := none
  minTokens := 0
  allStopTokenIds := []

def ratBatch : BatchConfig Rat where
  maxNumReqs := 4
  maxModelLen := 8
  vocabSize := 4
  blockTables := [(1, 4)]
  float32 := flushed
  unset := 0

def ratRequest (reqId : ReqId) (minP : Rat) : CachedRequestState Rat where
  reqId
  promptTokenIds := some [5, 6]
  promptEmbeds := none
  samplingParams := ratParams minP
  generator := none
  blockIds := [[1]]
  numComputedTokens := 0
  outputTokenIds := 10
  loraRequest := none
  described := rfl

/-- A request whose min-p is too small to be stored. -/
def tinyRun : List (WorkerStep Rat) :=
  [{ heap := fun _ => []
     removed := []
     added := [.addRequest (ratRequest 1 (1 / 10 ^ 50))]
     swaps := [] }]

def patientRequest : CachedRequestState Int :=
  { textRequest with
    samplingParams := { plainParams with minTokens := 2, allStopTokenIds := [0] }
    described := textRequest.described }

/-- Nothing happens to the batch, only its output lists are read. -/
def quietStep (outputs : List Token) : WorkerStep Int where
  heap := fun _ => outputs
  removed := []
  added := []
  swaps := []

/-- Two output tokens have come, then one of them is discarded. -/
def cutRun : List (WorkerStep Int) :=
  [addsOnly [] [patientRequest], quietStep [7, 8], quietStep [7]]

/-- The tiny min-p is not counted, and the request with one output token too few may stop. -/
theorem processors_not_mirroring :
    (∃ batch, InputBatch.run ratBatch tinyRun = some batch ∧ AlongRun StepFresh [] tinyRun ∧
      ¬ Mirrors (heapAfter (fun _ => []) tinyRun) batch (runRequests tinyRun)) ∧
    ∃ batch, InputBatch.run smallBatch cutRun = some batch ∧ AlongRun StepFresh [] cutRun ∧
      ¬ Mirrors (heapAfter (fun _ => []) cutRun) batch (runRequests cutRun) := by
  constructor
  · have count : (InputBatch.run ratBatch tinyRun).map
        (fun batch => batch.logitsprocs.minP.minPCount) = some 0 := by decide +kernel
    obtain ⟨batch, ran, shown⟩ := map_eq_some_iff.mp count
    refine ⟨batch, ran, ⟨⟨by decide, trivial⟩, trivial⟩, ?_⟩
    intro mirrors
    have counted := mirrors.minPCount
    rw [shown] at counted
    revert counted
    decide +kernel
  · have entry : (InputBatch.run smallBatch cutRun).map
        (fun batch => batch.logitsprocs.minTokens.minToks.get? 0) = some none := by decide
    obtain ⟨batch, ran, shown⟩ := map_eq_some_iff.mp entry
    refine ⟨batch, ran, ⟨⟨by decide, trivial⟩, trivial, trivial, trivial⟩, ?_⟩
    intro mirrors
    have held := mirrors.minTokens 0
    rw [shown] at held
    revert held
    decide

/-- Two requests with and one without min-p come, change places and leave. -/
def minPRun : List (WorkerStep Rat) :=
  [{ heap := fun _ => []
     removed := []
     added := [.addRequest (ratRequest 1 (1 / 2)), .addRequest (ratRequest 2 0),
       .addRequest (ratRequest 3 (1 / 4))]
     swaps := [(0, 1)] },
   { heap := fun _ => [7]
     removed := [2]
     added := []
     swaps := [] }]

theorem minPRun_mirrors :
    ∃ batch, InputBatch.run ratBatch minPRun = some batch ∧
      Mirrors (heapAfter (fun _ => []) minPRun) batch (runRequests minPRun) := by
  have started : (InputBatch.run ratBatch minPRun).isSome = true := by decide +kernel
  obtain ⟨batch, ran⟩ := isSome_iff_exists.mp started
  have fresh : AlongRun StepFresh [] minPRun :=
    ⟨⟨by decide, by decide, by decide, trivial⟩, trivial, trivial⟩
  have exact : RunExact ratBatch.float32 (fun _ => []) [] minPRun := by
    refine ⟨⟨?_, ?_⟩, ⟨?_, ?_⟩, trivial⟩
    · intro request member
      simp only [mem_cons, AddOp.addRequest.injEq, not_mem_nil, or_false]
        at member
      rcases member with rfl | rfl | rfl
      · decide +kernel
      · decide +kernel
      · decide +kernel
    · exact fun live member => absurd member not_mem_nil
    · exact fun request member => absurd member not_mem_nil
    · intro live member stays asked
      exact Nat.le_trans asked (Nat.zero_le _)
  exact ⟨batch, ran, run_processors_mirror ratBatch (by decide +kernel) minPRun batch ran fresh exact minPRun
    [] batch (append_nil minPRun).symm ran⟩

end VllmDcu.LogitsMirror

import VllmDcu.SlotReplay
import VllmDcu.LogitsProcessors

/-! The logits processors replay the log of a step: what they hold at each index is
the replay of additions, removals and moves on what they held before. -/
namespace VllmDcu.LogitsReplay
open Requests (Token ReqId)
open LogitsProcessors SlotReplay List Option Function Dict
variable {Num State Entry : Type}

def moveOf (moved : MovedRequest) : Move :=
  ⟨moved.source, moved.target, decide (moved.direct = .swap)⟩

def addition (newEntry : AddedRequest Num → Entry) (added : AddedRequest Num) : Nat × Entry :=
  (added.index, newEntry added)

def replayUpdate (blank : Entry) (newEntry : AddedRequest Num → Entry) (entries : Nat → Entry)
    (batchUpdate : Option (BatchUpdate Num)) : Nat → Entry :=
  match batchUpdate with
  | none => entries
  | some update =>
    replay blank entries (update.added.map (addition newEntry)) update.removed
      (update.moved.map moveOf)

/-! Dictionaries. -/

variable (newState : AddedRequest Num → Option State)

theorem addEntry_get? (entries : Dict Nat State × Bool) (added : AddedRequest Num) :
    (addEntry newState entries added).1.get? =
      Function.update entries.1.get? added.index (newState added) := by
  funext k
  unfold addEntry
  rw [update_apply]
  cases newState added with
  | some state => exact get?_set entries.1 added.index k state
  | none =>
    simp only
    split <;> exact get?_erase entries.1 added.index k

theorem addEntries_get? (added : List (AddedRequest Num)) (entries : Dict Nat State × Bool) :
    (added.foldl (addEntry newState) entries).1.get? =
      grow entries.1.get? (added.map (addition newState)) := by
  induction added generalizing entries with
  | nil => rfl
  | cons first rest ih =>
    rw [foldl_cons, ih, addEntry_get?]
    rfl

theorem removeEntries_get? (removed : List Nat) (entries : Dict Nat State × Bool) :
    (removed.foldl removeEntry entries).1.get? = clear none entries.1.get? removed := by
  induction removed generalizing entries with
  | nil => rfl
  | cons index removed ih =>
    have one : (removeEntry entries index).1.get? = update entries.1.get? index none := by
      funext k
      rw [update_apply]
      exact get?_erase entries.1 index k
    rw [foldl_cons, ih, one]
    rfl

theorem setIfPresent_get? (entries : Dict Nat State) (key k : Nat) (value : Option State) :
    (setIfPresent entries key value).get? k =
      if k = key then value.or (entries.get? k) else entries.get? k := by
  cases value with
  | none => exact (ite_self _).symm
  | some state => exact get?_set entries key k state

theorem moveEntry_get? (entries : Dict Nat State × Bool) (moved : MovedRequest) :
    (moveEntry entries moved).1.get? = transfer none entries.1.get? (moveOf moved) := by
  funext k
  unfold moveEntry transfer moveOf
  simp only [update_apply]
  by_cases exchanged : moved.direct = .swap
  · simp only [exchanged, ↓reduceIte, decide_true, setIfPresent_get?, get?_erase]
    by_cases atTarget : k = moved.target
    · by_cases atSource : k = moved.source
      · simp [← atTarget, ← atSource]
      · simp [← atTarget, atSource]
    · by_cases atSource : k = moved.source
      · simp only [atSource]
        by_cases still : moved.source = moved.target
        · exact absurd (atSource.trans still) atTarget
        · simp [still, Ne.symm still]
      · simp [atTarget, atSource]
  · simp only [exchanged, ↓reduceIte, decide_false, Bool.false_eq_true, setIfPresent_get?,
      get?_erase]
    by_cases atTarget : k = moved.target
    · simp [atTarget]
    · simp [atTarget]

theorem moveEntries_get? (moved : List MovedRequest) (entries : Dict Nat State × Bool) :
    (moved.foldl moveEntry entries).1.get? =
      (moved.map moveOf).foldl (transfer none) entries.1.get? := by
  induction moved generalizing entries with
  | nil => rfl
  | cons first rest ih => rw [foldl_cons, ih, moveEntry_get?, map_cons, foldl_cons]

/-- Stopping early at an empty dictionary makes no difference. -/
theorem processDictUpdates_get? (entries : Dict Nat State)
    (batchUpdate : Option (BatchUpdate Num)) :
    (processDictUpdates newState entries batchUpdate).1.get? =
      replayUpdate none newState entries.get? batchUpdate := by
  cases batchUpdate with
  | none => rfl
  | some update =>
    have grown := addEntries_get? newState update.added (entries, false)
    unfold processDictUpdates replayUpdate replay
    simp only
    rw [← grown]
    split
    · rename_i bare
      have nothing : (update.added.foldl (addEntry newState) (entries, false)).1.get? =
          fun _ => none := by
        unfold get?
        rw [List.isEmpty_iff.mp bare]
        rfl
      rw [nothing, clear_blank, transfers_blank]
    · rw [moveEntries_get?, removeEntries_get?]

theorem logitBias_get? (float32 : Num → Num) (processor : LogitBiasLogitsProcessor Num)
    (batchUpdate : Option (BatchUpdate Num)) :
    (processor.updateState float32 batchUpdate).biases.get? =
      replayUpdate none LogitBiasLogitsProcessor.newState processor.biases.get? batchUpdate := by
  rw [← processDictUpdates_get?]
  unfold LogitBiasLogitsProcessor.updateState
  simp only
  split <;> rfl

theorem eraseAll_get? (keys : List Nat) (entries : Dict Nat State) (k : Nat) :
    (keys.foldl Dict.erase entries).get? k = if k ∈ keys then none else entries.get? k := by
  induction keys generalizing entries with
  | nil => rfl
  | cons key keys ih =>
    rw [foldl_cons, ih]
    by_cases here : k = key
    · simp [here]
    · simp [here]

/-- After the replay the entries that have attained their length are dropped. -/
theorem minTokens_get? (heap : Heap) (processor : MinTokensLogitsProcessor)
    (batchUpdate : Option (BatchUpdate Num)) (i : Nat) :
    (processor.updateState heap batchUpdate).minToks.get? i =
      (replayUpdate none (MinTokensLogitsProcessor.addRequest heap) processor.minToks.get?
        batchUpdate i).filter fun state => !MinTokensLogitsProcessor.attained heap state := by
  rw [← processDictUpdates_get?]
  unfold MinTokensLogitsProcessor.updateState
  simp only
  have pruned (entries : Dict Nat MinTokensState) :
      ((MinTokensLogitsProcessor.toRemove heap entries).foldl erase entries).get? i =
        (entries.get? i).filter fun state => !MinTokensLogitsProcessor.attained heap state := by
    have listed : i ∈ MinTokensLogitsProcessor.toRemove heap entries ↔
        ∃ state, entries.get? i = some state ∧
          MinTokensLogitsProcessor.attained heap state = true := by
      unfold MinTokensLogitsProcessor.toRemove
      simp only [List.mem_map, mem_filter, Prod.exists, exists_and_right, exists_eq_right,
        get?_eq_some_iff]
    rw [eraseAll_get?]
    cases found : entries.get? i with
    | none => exact ite_self none
    | some state =>
      rw [found] at listed
      by_cases done : MinTokensLogitsProcessor.attained heap state = true
      · rw [if_pos (listed.mpr ⟨state, rfl, done⟩)]
        simp [filter_some, done]
      · rw [if_neg fun member => done (by
          obtain ⟨other, same, attained⟩ := listed.mp member
          rwa [some.inj same])]
        simp [filter_some, done]
  split <;> exact pruned _

/-! The array of min-p values and the number of those that are not zero. -/

section MinP
variable [Zero Num] [DecidableEq Num]

/-- Holds the log's entries, and its count is that of the entries that are not zero. -/
structure Holding (processor : MinPLogitsProcessor Num) (entries : Nat → Num) : Prop where
  values : processor.minPCpu = entries
  count : Counted 0 processor.minPCount entries

/-- The stored value decides on the count here, which the truth of the request's value only
does when rounding keeps it from zero. -/
theorem addMinP_holding (float32 : Num → Num) (zero : float32 0 = 0)
    (state : MinPLogitsProcessor Num × Bool) (entries : Nat → Num) (holding : Holding state.1 entries)
    (added : AddedRequest Num) (exact : added.params.minP ≠ 0 → float32 added.params.minP ≠ 0) :
    Holding (MinPLogitsProcessor.addMinP float32 state added).1
      (Function.update entries added.index (float32 added.params.minP)) := by
  obtain ⟨rfl, counted⟩ := holding
  have written := counted.write added.index (float32 added.params.minP)
  unfold MinPLogitsProcessor.addMinP
  by_cases same : state.1.minPCpu added.index = float32 added.params.minP
  · simp only [same, ne_eq, not_true_eq_false, ↓reduceIte]
    rw [← same, update_eq_self]
    exact ⟨rfl, counted⟩
  · simp only [ne_eq, same, not_false_eq_true, ↓reduceIte]
    constructor
    · rfl
    · by_cases absent : added.params.minP = 0
      · have before : state.1.minPCpu added.index ≠ 0 := by
          rwa [absent, zero] at same
        simpa [absent, zero, weight, before] using written
      · by_cases before : state.1.minPCpu added.index = 0
        · simpa [absent, exact absent, weight, before] using written
        · simpa [absent, exact absent, weight, before] using written

theorem addMinPs_holding (float32 : Num → Num) (zero : float32 0 = 0)
    (added : List (AddedRequest Num))
    (exact : ∀ request ∈ added, request.params.minP ≠ 0 → float32 request.params.minP ≠ 0)
    (state : MinPLogitsProcessor Num × Bool) (entries : Nat → Num)
    (holding : Holding state.1 entries) :
    Holding (added.foldl (MinPLogitsProcessor.addMinP float32) state).1
      (grow entries (added.map (addition fun request => float32 request.params.minP))) := by
  induction added generalizing state entries with
  | nil => exact holding
  | cons first rest ih =>
    have one := addMinP_holding float32 zero state entries holding first (exact first mem_cons_self)
    exact ih (fun request member => exact request (mem_cons_of_mem first member)) _ _ one

theorem removeMinP_holding {processor : MinPLogitsProcessor Num} {entries : Nat → Num}
    (holding : Holding processor entries) {index : Nat} :
    Holding (processor.removeMinP index) (Function.update entries index 0) := by
  obtain ⟨rfl, counted⟩ := holding
  have written := counted.write index 0
  unfold MinPLogitsProcessor.removeMinP
  by_cases present : processor.minPCpu index = 0
  · rw [if_neg (not_not.mpr present)]
    rw [← present, update_eq_self]
    exact ⟨rfl, counted⟩
  · rw [if_pos present]
    constructor
    · rfl
    · simpa [weight, present] using written

theorem removeMinPs_holding (removed : List Nat) (processor : MinPLogitsProcessor Num)
    (entries : Nat → Num) (holding : Holding processor entries) :
    Holding (removed.foldl MinPLogitsProcessor.removeMinP processor) (clear 0 entries removed) := by
  induction removed generalizing processor entries with
  | nil => exact holding
  | cons index removed ih => exact ih _ _ (removeMinP_holding holding)

theorem moveMinP_holding {state : MinPLogitsProcessor Num × Bool} {entries : Nat → Num}
    (holding : Holding state.1 entries) {moved : MovedRequest}
    (different : moved.direct = .unidirectional → moved.source ≠ moved.target) :
    Holding (MinPLogitsProcessor.moveMinP state moved).1 (transfer 0 entries (moveOf moved)) := by
  obtain ⟨rfl, counted⟩ := holding
  have apart : (moveOf moved).exchanges = false → (moveOf moved).source ≠ (moveOf moved).target := by
    unfold moveOf
    cases kind : moved.direct with
    | swap => simp
    | unidirectional => exact fun _ => different kind
  have carried := counted.transfer (moveOf moved) apart
  unfold MinPLogitsProcessor.moveMinP
  cases kind : moved.direct with
  | swap =>
    have exchanges : (moveOf moved).exchanges = true := by simp [moveOf, kind]
    rw [exchanges] at carried
    constructor
    · funext k
      simp only [reduceCtorEq, ↓reduceIte, ne_eq, transfer, moveOf, kind, decide_true]
      by_cases equal : state.1.minPCpu moved.source = state.1.minPCpu moved.target
      · simp only [equal, not_true_eq_false, ↓reduceIte, update_apply]
        by_cases atTarget : k = moved.target
        · simp [atTarget]
        · by_cases atSource : k = moved.source
          · simp [atSource, equal]
          · simp [atTarget, atSource]
      · have elsewhere : moved.source ≠ moved.target := fun same => equal (by rw [same])
        simp only [equal, not_false_eq_true, ↓reduceIte, update_apply]
        by_cases atTarget : k = moved.target
        · simp [atTarget, elsewhere.symm]
        · simp [atTarget]
    · simpa using carried
  | unidirectional =>
    have apart := different kind
    have plain : (moveOf moved).exchanges = false := by simp [moveOf, kind]
    rw [plain] at carried
    constructor
    · funext k
      simp only [↓reduceIte, reduceCtorEq, ne_eq, transfer, moveOf, kind, decide_false,
        Bool.false_eq_true]
      by_cases atSource : k = moved.source
      · subst atSource
        by_cases nothing : state.1.minPCpu moved.source = 0
        · by_cases equal : (0 : Num) = state.1.minPCpu moved.target
          · simp [nothing, equal, apart]
          · simp [nothing, equal, apart]
        · simp [nothing, apart]
      · by_cases atTarget : k = moved.target
        · subst atTarget
          by_cases equal : state.1.minPCpu moved.source = state.1.minPCpu moved.target
          · split <;> simp [equal, atSource]
          · split <;> simp [atSource]
        · by_cases equal : state.1.minPCpu moved.source = state.1.minPCpu moved.target
          · split <;> simp [equal, atSource, atTarget]
          · split <;> simp [atSource, atTarget]
    · have lost : (if state.1.minPCpu moved.target ≠ 0 then state.1.minPCount - 1
          else state.1.minPCount) =
          state.1.minPCount - weight 0 (state.1.minPCpu moved.target) := by
        unfold weight
        by_cases free : state.1.minPCpu moved.target = 0
        · simp [free]
        · simp [free]
      simp only [↓reduceIte]
      rw [lost]
      exact carried

theorem moveMinPs_holding (moved : List MovedRequest)
    (different : ∀ move ∈ moved, move.direct = .unidirectional → move.source ≠ move.target)
    (state : MinPLogitsProcessor Num × Bool) (entries : Nat → Num)
    (holding : Holding state.1 entries) :
    Holding (moved.foldl MinPLogitsProcessor.moveMinP state).1
      ((moved.map moveOf).foldl (transfer 0) entries) := by
  induction moved generalizing state entries with
  | nil => exact holding
  | cons first rest ih =>
    have one := moveMinP_holding holding (different first mem_cons_self)
    exact ih (fun move member => different move (mem_cons_of_mem first member)) _ _ one

/-- Nothing is lost by skipping the removals and the moves when all entries are zero. -/
theorem minP_holding {float32 : Num → Num} (zero : float32 0 = 0)
    {processor : MinPLogitsProcessor Num} (entries : Nat → Num) (holding : Holding processor entries)
    (batchUpdate : Option (BatchUpdate Num))
    (exact : ∀ update, batchUpdate = some update → ∀ request ∈ update.added,
      request.params.minP ≠ 0 → float32 request.params.minP ≠ 0)
    (different : ∀ update, batchUpdate = some update → ∀ move ∈ update.moved,
      move.direct = .unidirectional → move.source ≠ move.target) :
    Holding (processor.updateState float32 batchUpdate)
      (replayUpdate 0 (fun request => float32 request.params.minP) entries batchUpdate) := by
  cases batchUpdate with
  | none => exact holding
  | some update =>
    have grown := addMinPs_holding float32 zero update.added (exact update rfl) (processor, false)
      entries holding
    unfold MinPLogitsProcessor.updateState replayUpdate replay
    simp only
    have outer (replayed : MinPLogitsProcessor Num × Bool) (after : Nat → Num)
        (held : Holding replayed.1 after) :
        Holding (if replayed.1.minPCount ≠ 0 ∧
            (replayed.2 ∨ replayed.1.minP.length ≠ update.batchSize) then
          { replayed.1 with minP := (range update.batchSize).map replayed.1.minPCpu }
        else replayed.1) after := by
      split
      · exact ⟨held.values, held.count⟩
      · exact held
    apply outer
    split
    · apply moveMinPs_holding update.moved (different update rfl)
      exact removeMinPs_holding update.removed _ _ grown
    · rename_i idle
      have count := not_not.mp idle
      have counted := grown.count
      rw [count] at counted
      have blank := counted.zero
      rw [blank] at grown ⊢
      rw [clear_blank, transfers_blank]
      exact grown

end MinP
end VllmDcu.LogitsReplay

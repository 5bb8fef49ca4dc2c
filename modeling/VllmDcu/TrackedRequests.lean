import VllmDcu.RequestTracking

/-! What the calls of the output processor keep: the external ids of the live requests, and the
parents with their children. -/
namespace VllmDcu.RequestTracking.OutputProcessor
open RequestOutputs
open OutputProcessing (RequestId ParentRequest childReqId)
open List Option Dict

variable {Prob Logprob Experts : Type}
variable {self next : OutputProcessor Prob Logprob Experts}

/-! Names of children. -/

theorem childReqId_parent {left right : RequestId} {i j : Nat}
    (same : childReqId left i = childReqId right j) : left = right := by
  unfold childReqId at same
  -- the first underscore ends the index
  have cut (parentId : RequestId) (index : Nat) :
      (Nat.toDigits 10 index ++ '_' :: parentId).dropWhile (fun c => decide (c ≠ '_')) =
        '_' :: parentId := by
    rw [dropWhile_append_of_pos]
    · rfl
    · intro c member
      apply decide_eq_true
      rintro rfl
      exact Nat.underscore_not_in_toDigits member
  have tails := congrArg (dropWhile fun c => decide (c ≠ '_')) same
  rw [cut, cut] at tails
  exact (cons.inj tails).2

theorem childReqId_ne (parentId : RequestId) (index : Nat) : childReqId parentId index ≠ parentId := by
  intro same
  have lengths := congrArg length same
  rw [childReqId, length_append, length_cons] at lengths
  omega

/-! The external ids of the live requests, less the ids that an abort has taken out already. -/

structure Indexed (processor : OutputProcessor Prob Logprob Experts) (removed : RequestId → Prop) :
    Prop where
  own : ∀ id reqState, processor.requestStates.get? id = some reqState → reqState.requestId = id
  externalReqIds : ∀ externalReqId id, id ∈ processor.internalIds externalReqId ↔
    (∃ reqState, processor.requestStates.get? id = some reqState ∧
      reqState.externalReqId = externalReqId) ∧ ¬ removed id
  distinct : ∀ externalReqId, (processor.internalIds externalReqId).Nodup
  nonempty : ∀ externalReqId ids, processor.externalReqIds.get? externalReqId = some ids → ids ≠ []

variable {removed : RequestId → Prop}

theorem Indexed.congr {other : RequestId → Prop} (indexed : Indexed self removed)
    (states : next.requestStates = self.requestStates)
    (externals : next.externalReqIds = self.externalReqIds)
    (same : ∀ id reqState, self.requestStates.get? id = some reqState → (removed id ↔ other id)) :
    Indexed next other := by
  have lists (externalReqId : RequestId) :
      next.internalIds externalReqId = self.internalIds externalReqId := by
    rw [internalIds, externals, internalIds]
  constructor
  · rw [states]
    exact indexed.own
  · intro externalReqId id
    rw [lists, states, indexed.externalReqIds]
    constructor
    · rintro ⟨⟨reqState, live, carries⟩, kept⟩
      exact ⟨⟨reqState, live, carries⟩, fun gone => kept ((same id reqState live).mpr gone)⟩
    · rintro ⟨⟨reqState, live, carries⟩, kept⟩
      exact ⟨⟨reqState, live, carries⟩, fun gone => kept ((same id reqState live).mp gone)⟩
  · intro externalReqId
    rw [lists]
    exact indexed.distinct externalReqId
  · rw [externals]
    exact indexed.nonempty

/-- The removal of a listed id. -/
theorem forgetInternal_spec (reqState : RequestState)
    (distinct : ∀ externalReqId, (self.internalIds externalReqId).Nodup)
    (nonempty : ∀ externalReqId ids, self.externalReqIds.get? externalReqId = some ids → ids ≠ [])
    (listed : reqState.requestId ∈ self.internalIds reqState.externalReqId) :
    ∃ externals, self.forgetInternal reqState = some { self with externalReqIds := externals } ∧
      (∀ externalReqId id, id ∈ (externals.get? externalReqId).getD [] ↔
        id ∈ self.internalIds externalReqId ∧
          ¬ (externalReqId = reqState.externalReqId ∧ id = reqState.requestId)) ∧
      (∀ externalReqId, ((externals.get? externalReqId).getD []).Nodup) ∧
      ∀ externalReqId ids, externals.get? externalReqId = some ids → ids ≠ [] := by
  have erased (id : RequestId) :
      id ∈ (self.internalIds reqState.externalReqId).erase reqState.requestId ↔
        id ≠ reqState.requestId ∧ id ∈ self.internalIds reqState.externalReqId :=
    (distinct _).mem_erase_iff
  rw [forgetInternal, if_pos listed]
  refine ⟨_, rfl, ?_⟩
  by_cases empty : (self.internalIds reqState.externalReqId).erase reqState.requestId = []
  · rw [if_pos empty]
    have lists (externalReqId : RequestId) :
        ((self.externalReqIds.erase reqState.externalReqId).get? externalReqId).getD [] =
          if externalReqId = reqState.externalReqId then [] else self.internalIds externalReqId := by
      rw [get?_erase]
      split
      · rfl
      · rfl
    refine ⟨?_, ?_, ?_⟩
    · intro externalReqId id
      rw [lists]
      by_cases here : externalReqId = reqState.externalReqId
      · subst here
        have none := erased id
        rw [empty] at none
        rw [if_pos rfl]
        constructor
        · exact fun member => absurd member not_mem_nil
        · rintro ⟨member, apart⟩
          exact none.mpr ⟨fun same => apart ⟨rfl, same⟩, member⟩
      · rw [if_neg here]
        exact ⟨fun member => ⟨member, fun both => here both.1⟩, And.left⟩
    · intro externalReqId
      rw [lists]
      split
      · exact nodup_nil
      · exact distinct externalReqId
    · intro externalReqId ids found
      rw [get?_erase] at found
      split at found
      · contradiction
      · exact nonempty externalReqId ids found
  · rw [if_neg empty]
    have lists (externalReqId : RequestId) :
        ((self.externalReqIds.set reqState.externalReqId
          ((self.internalIds reqState.externalReqId).erase reqState.requestId)).get?
            externalReqId).getD [] =
          if externalReqId = reqState.externalReqId then
            (self.internalIds reqState.externalReqId).erase reqState.requestId
          else self.internalIds externalReqId := by
      rw [get?_set]
      split
      · rfl
      · rfl
    refine ⟨?_, ?_, ?_⟩
    · intro externalReqId id
      rw [lists]
      by_cases here : externalReqId = reqState.externalReqId
      · subst here
        rw [if_pos rfl, erased]
        constructor
        · exact fun ⟨differs, member⟩ => ⟨member, fun both => differs both.2⟩
        · exact fun ⟨member, apart⟩ => ⟨fun same => apart ⟨rfl, same⟩, member⟩
      · rw [if_neg here]
        exact ⟨fun member => ⟨member, fun both => here both.1⟩, And.left⟩
    · intro externalReqId
      rw [lists]
      split
      · exact (distinct _).erase _
      · exact distinct externalReqId
    · intro externalReqId ids found
      rw [get?_set] at found
      split at found
      · cases found
        exact empty
      · exact nonempty externalReqId ids found

/-- A live request is taken out of the map. -/
theorem Indexed.forget (indexed : Indexed self removed)
    (base : OutputProcessor Prob Logprob Experts) (id : RequestId) (reqState : RequestState)
    (live : self.requestStates.get? id = some reqState) (kept : ¬ removed id)
    (same : base.externalReqIds = self.externalReqIds) :
    ∃ externals, base.forgetInternal reqState = some { base with externalReqIds := externals } ∧
      Indexed { self with externalReqIds := externals } fun other => other = id ∨ removed other := by
  have own := indexed.own id reqState live
  have lists (externalReqId : RequestId) :
      base.internalIds externalReqId = self.internalIds externalReqId := by
    rw [internalIds, same, internalIds]
  have listed : reqState.requestId ∈ base.internalIds reqState.externalReqId := by
    rw [lists]
    exact (indexed.externalReqIds _ _).mpr ⟨⟨reqState, own ▸ live, rfl⟩, own ▸ kept⟩
  obtain ⟨externals, done, members, distinct, nonempty⟩ :=
    forgetInternal_spec reqState (fun externalReqId => lists externalReqId ▸ indexed.distinct _)
      (same ▸ indexed.nonempty) listed
  refine ⟨externals, done, indexed.own, ?_, distinct, nonempty⟩
  intro externalReqId other
  refine (members externalReqId other).trans ?_
  rw [lists, indexed.externalReqIds, own]
  constructor
  · rintro ⟨⟨⟨found, liveOther, carries⟩, left⟩, apart⟩
    refine ⟨⟨found, liveOther, carries⟩, ?_⟩
    rintro (rfl | gone)
    · rw [live] at liveOther
      cases liveOther
      exact apart ⟨carries.symm, rfl⟩
    · exact left gone
  · rintro ⟨carried, left⟩
    exact ⟨⟨carried, fun gone => left (Or.inr gone)⟩, fun both => left (Or.inl both.2)⟩

/-- A removed request leaves the request states. -/
theorem Indexed.pop (id : RequestId)
    (indexed : Indexed self fun other => other = id ∨ removed other)
    (states : next.requestStates = self.requestStates.erase id)
    (externals : next.externalReqIds = self.externalReqIds) : Indexed next removed := by
  have lists (externalReqId : RequestId) :
      next.internalIds externalReqId = self.internalIds externalReqId := by
    rw [internalIds, externals, internalIds]
  constructor
  · intro other reqState live
    rw [states, get?_erase] at live
    split at live
    · contradiction
    · exact indexed.own other reqState live
  · intro externalReqId other
    rw [lists, indexed.externalReqIds, states, get?_erase]
    by_cases same : other = id
    · rw [if_pos same]
      constructor
      · rintro ⟨-, kept⟩
        exact absurd (Or.inl same) kept
      · rintro ⟨⟨_, impossible, -⟩, -⟩
        contradiction
    · rw [if_neg same]
      constructor
      · exact fun ⟨carried, kept⟩ => ⟨carried, fun gone => kept (Or.inr gone)⟩
      · refine fun ⟨carried, kept⟩ => ⟨carried, ?_⟩
        rintro (equal | gone)
        · exact same equal
        · exact kept gone
  · intro externalReqId
    rw [lists]
    exact indexed.distinct externalReqId
  · rw [externals]
    exact indexed.nonempty

/-! The parents and their children. -/

/-- What may happen to a parent while some of its children go. -/
structure SameParent (gone : RequestId → Prop) (before after : ParentRequest Prob Logprob Experts) :
    Prop where
  requestId : after.requestId = before.requestId
  n : after.n = before.n
  outputKind : after.outputKind = before.outputKind
  aggregator : after.outputAggregator.length = before.outputAggregator.length
  distinct : before.childRequests.Nodup → after.childRequests.Nodup
  fewer : ∀ id ∈ after.childRequests, id ∈ before.childRequests
  still : ∀ id ∈ before.childRequests, ¬ gone id → id ∈ after.childRequests

variable (gone : RequestId → Prop)

theorem SameParent.refl (parent : ParentRequest Prob Logprob Experts) :
    SameParent gone parent parent :=
  ⟨rfl, rfl, rfl, rfl, id, fun _ => id, fun _ member _ => member⟩

theorem sameParents_refl (parents : Dict RequestId (ParentRequest Prob Logprob Experts))
    (parentId : RequestId) :
    Option.Rel (SameParent gone) (parents.get? parentId) (parents.get? parentId) := by
  cases parents.get? parentId with
  | none => exact .none
  | some parent => exact .some (.refl gone parent)

theorem sameParents_mono {gone other : RequestId → Prop} (more : ∀ id, gone id → other id)
    {before after : Option (ParentRequest Prob Logprob Experts)}
    (related : Option.Rel (SameParent gone) before after) :
    Option.Rel (SameParent other) before after := by
  cases related with
  | none => exact .none
  | some same =>
    exact .some ⟨same.requestId, same.n, same.outputKind, same.aggregator, same.distinct,
      same.fewer, fun id member stays => same.still id member fun isGone => stays (more id isGone)⟩

theorem getOutputs_spec (parent : ParentRequest Prob Logprob Experts) (childId : RequestId)
    (completion : CompletionOutput Prob Logprob Experts)
    (inside : parent.outputKind = .finalOnly → completion.index < parent.outputAggregator.length) :
    ∃ got, parent.getOutputs childId completion = some got ∧
      SameParent (fun id => completion.finished = true ∧ id = childId) parent got.1 ∧
      (completion.finished = true → got.1.childRequests = parent.childRequests.erase childId) := by
  have same (aggregator : List (Option (CompletionOutput Prob Logprob Experts)))
      (length : aggregator.length = parent.outputAggregator.length) :
      SameParent (fun id => completion.finished = true ∧ id = childId) parent { parent with
        childRequests := if completion.finished then parent.childRequests.erase childId
          else parent.childRequests
        outputAggregator := aggregator } := by
    refine ⟨rfl, rfl, rfl, length, ?_, ?_, ?_⟩
    · intro distinct
      split
      · exact distinct.erase childId
      · exact distinct
    · intro id member
      split at member
      · exact mem_of_mem_erase member
      · exact member
    · intro id member stays
      split
      · rename_i finished
        exact (mem_erase_of_ne fun equal => stays ⟨finished, equal⟩).mpr member
      · exact member
  unfold ParentRequest.getOutputs
  by_cases streams : parent.outputKind ≠ .finalOnly
  · rw [if_pos streams]
    exact ⟨_, rfl, same parent.outputAggregator rfl, fun finished => if_pos finished⟩
  · rw [if_neg streams, if_pos (inside (not_not.mp streams))]
    exact ⟨_, rfl, same _ (length_set ..), fun finished => if_pos finished⟩

structure Family (processor : OutputProcessor Prob Logprob Experts) : Prop where
  child : ∀ id reqState parentId, processor.requestStates.get? id = some reqState →
    reqState.parentReq = some parentId → parentId ∈ processor.parentRequests ∧
      reqState.streamingInput = false ∧ reqState.inputChunkQueue = none ∧
      ∃ parent, processor.parents.get? parentId = some parent ∧ id ∈ parent.childRequests ∧
        (parent.outputKind = .finalOnly → reqState.requestIndex < parent.outputAggregator.length)
  parent : ∀ parentId parent, processor.parents.get? parentId = some parent →
    parent.requestId = parentId ∧ parent.childRequests.Nodup ∧
      (parent.outputKind = .finalOnly → parent.outputAggregator.length = parent.n) ∧
      ∀ id ∈ parent.childRequests, ∃ index, id = childReqId parentId index
  held : ∀ parentId ∈ processor.parentRequests,
    ∃ parent, processor.parents.get? parentId = some parent
  apart : ∀ parentId parent, processor.parents.get? parentId = some parent →
    processor.requestStates.get? parentId = none ∧
      (∀ index, processor.parents.get? (childReqId parentId index) = none) ∧
      ∀ index reqState, processor.requestStates.get? (childReqId parentId index) = some reqState →
        reqState.parentReq = some parentId

/-- Requests go, parents forget children that are gone, and childless parents may be dropped. -/
theorem Family.shrink (family : Family self)
    (states : ∀ id reqState, next.requestStates.get? id = some reqState →
      self.requestStates.get? id = some reqState ∧ ¬ gone id)
    (parents : ∀ parentId, Option.Rel (SameParent gone) (self.parents.get? parentId)
      (next.parents.get? parentId))
    (fewer : ∀ parentId ∈ next.parentRequests, parentId ∈ self.parentRequests)
    (kept : ∀ parentId id, next.ChildOf parentId id → parentId ∈ next.parentRequests) :
    Family next := by
  have back (parentId : RequestId) (after : ParentRequest Prob Logprob Experts)
      (found : next.parents.get? parentId = some after) :
      ∃ before, self.parents.get? parentId = some before ∧ SameParent gone before after := by
    have related := parents parentId
    rw [found] at related
    cases before : self.parents.get? parentId with
    | none =>
      rw [before] at related
      cases related
    | some parent =>
      rw [before] at related
      cases related with
      | some same => exact ⟨parent, rfl, same⟩
  have forth (parentId : RequestId) (before : ParentRequest Prob Logprob Experts)
      (found : self.parents.get? parentId = some before) :
      ∃ after, next.parents.get? parentId = some after ∧ SameParent gone before after := by
    have related := parents parentId
    rw [found] at related
    cases after : next.parents.get? parentId with
    | none =>
      rw [after] at related
      cases related
    | some parent =>
      rw [after] at related
      cases related with
      | some same => exact ⟨parent, rfl, same⟩
  constructor
  · intro id reqState parentId live childOf
    obtain ⟨before, stays⟩ := states id reqState live
    obtain ⟨-, streaming, chunks, parent, found, listed, inside⟩ :=
      family.child id reqState parentId before childOf
    obtain ⟨after, foundAfter, same⟩ := forth parentId parent found
    refine ⟨kept parentId id ⟨reqState, live, childOf⟩, streaming, chunks, after, foundAfter,
      same.still id listed stays, ?_⟩
    rw [same.outputKind, same.aggregator]
    exact inside
  · intro parentId after found
    obtain ⟨before, foundBefore, same⟩ := back parentId after found
    obtain ⟨own, distinct, length, named⟩ := family.parent parentId before foundBefore
    refine ⟨same.requestId.trans own, same.distinct distinct, ?_, ?_⟩
    · rw [same.outputKind, same.aggregator, same.n]
      exact length
    · exact fun id member => named id (same.fewer id member)
  · intro parentId member
    obtain ⟨parent, found⟩ := family.held parentId (fewer parentId member)
    obtain ⟨after, foundAfter, -⟩ := forth parentId parent found
    exact ⟨after, foundAfter⟩
  · intro parentId after found
    obtain ⟨before, foundBefore, -⟩ := back parentId after found
    obtain ⟨notLive, noParent, children⟩ := family.apart parentId before foundBefore
    refine ⟨?_, fun index => ?_, ?_⟩
    · cases live : next.requestStates.get? parentId with
      | none => rfl
      | some reqState =>
        have := (states parentId reqState live).1
        rw [notLive] at this
        contradiction
    · cases child : next.parents.get? (childReqId parentId index) with
      | none => rfl
      | some other =>
        obtain ⟨already, impossible, -⟩ := back _ other child
        rw [noParent index] at impossible
        contradiction
    · exact fun index reqState live => children index reqState (states _ reqState live).1

/-- The parent of a live request hears of its completion. -/
theorem makeRequestOutput_spec (base : OutputProcessor Prob Logprob Experts) (family : Family self)
    (id : RequestId) (reqState : RequestState) (live : self.requestStates.get? id = some reqState)
    (own : reqState.requestId = id) (parents : base.parents = self.parents)
    (said : CompletionOutput Prob Logprob Experts) (finishReason : Option FinishReason)
    (heldBack : Bool) :
    ∃ after, base.makeRequestOutput reqState said finishReason heldBack =
        some { base with parents := after } ∧
      (∀ parentId, Option.Rel (SameParent fun other => finishReason ≠ none ∧ other = id)
        (self.parents.get? parentId) (after.get? parentId)) ∧
      (finishReason ≠ none → ∀ parentId parent, reqState.parentReq = some parentId →
        self.parents.get? parentId = some parent →
        ∃ left, after.get? parentId = some left ∧
          left.childRequests = parent.childRequests.erase id) ∧
      (reqState.parentReq = none → after = self.parents) := by
  rw [makeRequestOutput]
  by_cases silent : finishReason = none ∧ (reqState.outputKind = .finalOnly ∨ heldBack = true)
  · rw [if_pos silent]
    refine ⟨self.parents, ?_, sameParents_refl _ _, fun finished => absurd silent.1 finished,
      fun _ => rfl⟩
    rw [← parents]
  · rw [if_neg silent]
    cases childOf : reqState.parentReq with
    | none =>
      refine ⟨self.parents, ?_, sameParents_refl _ _, ?_, fun _ => rfl⟩
      · rw [← parents]
      · intro _ parentId parent impossible
        contradiction
    | some parentId =>
      obtain ⟨-, -, -, parent, found, listed, inside⟩ :=
        family.child id reqState parentId live childOf
      obtain ⟨got, done, same, erased⟩ := getOutputs_spec parent id
        { said with index := reqState.requestIndex, finishReason := finishReason } inside
      have isFinished : ({ said with index := reqState.requestIndex, finishReason := finishReason } :
          CompletionOutput Prob Logprob Experts).finished = true ↔ finishReason ≠ none :=
        isSome_iff_ne_none
      simp only [parents, found, own, done, bind_eq_bind, bind_some]
      refine ⟨self.parents.set parentId got.1, rfl, ?_, ?_, fun impossible => ?_⟩
      · intro other
        rw [get?_set]
        by_cases here : other = parentId
        · subst here
          rw [if_pos rfl, found]
          simp only [isFinished] at same
          exact .some same
        · rw [if_neg here]
          exact sameParents_refl _ _ other
      · intro finished other held here foundOther
        cases here
        rw [found] at foundOther
        cases foundOther
        exact ⟨got.1, by rw [get?_set, if_pos rfl], erased (isFinished.mpr finished)⟩
      · contradiction

/-- What holds between any two calls. -/
structure Kept (processor : OutputProcessor Prob Logprob Experts) : Prop where
  indexed : Indexed processor fun _ => False
  family : Family processor
  children : ∀ parentId ∈ processor.parentRequests, ∃ id, processor.ChildOf parentId id

theorem Kept.tracks (kept : Kept self) : self.Tracks := by
  constructor
  · intro externalReqId id
    rw [kept.indexed.externalReqIds]
    exact ⟨And.left, fun carried => ⟨carried, not_false⟩⟩
  · exact kept.indexed.distinct
  · exact kept.indexed.nonempty
  · intro parentId
    constructor
    · exact kept.children parentId
    · rintro ⟨id, reqState, live, childOf⟩
      exact (kept.family.child id reqState parentId live childOf).1

/-! Finishing. -/

section
variable (kept : Kept self)
include kept

/-- The end of a request whose parent has heard of it. -/
theorem finishRequest_kept {id : RequestId} {reqState : RequestState}
    (live : self.requestStates.get? id = some reqState)
    {after : Dict RequestId (ParentRequest Prob Logprob Experts)}
    (parents : ∀ parentId, Option.Rel (SameParent fun other => other = id)
      (self.parents.get? parentId) (after.get? parentId))
    (erased : ∀ parentId parent, reqState.parentReq = some parentId →
      self.parents.get? parentId = some parent →
      ∃ left, after.get? parentId = some left ∧ left.childRequests = parent.childRequests.erase id)
    (clean : ∀ parentId parent, self.ChildOf parentId id →
      self.parents.get? parentId = some parent →
      (∃ other ≠ id, self.ChildOf parentId other) ∨ ∀ other ∈ parent.childRequests, other = id) :
    ∃ next, finishRequest { self with parents := after } reqState = some next ∧ Kept next := by
  have own := kept.indexed.own id reqState live
  obtain ⟨externals, forgotten, indexed⟩ := kept.indexed.forget
    { self with parents := after, requestStates := self.requestStates.erase id } id reqState live not_false rfl
  -- any other request is as before
  have others (parentRequests : List RequestId) (parentId other : RequestId) :
      ChildOf ⟨self.requestStates.erase id, parentRequests, externals, after⟩ parentId other ↔
        other ≠ id ∧ self.ChildOf parentId other := by
    unfold ChildOf
    simp only [get?_erase]
    by_cases same : other = id
    · rw [if_pos same]
      constructor
      · rintro ⟨_, impossible, -⟩
        contradiction
      · exact fun both => absurd same both.1
    · rw [if_neg same]
      exact ⟨fun child => ⟨same, child⟩, And.right⟩
  have states (other : RequestId) (found : RequestState)
      (still : (self.requestStates.erase id).get? other = some found) :
      self.requestStates.get? other = some found ∧ ¬ other = id := by
    rw [get?_erase] at still
    split at still
    · contradiction
    · trivial
  have indexedNext (parentRequests : List RequestId) :
      Indexed ⟨self.requestStates.erase id, parentRequests, externals, after⟩ fun _ => False :=
    indexed.pop id rfl rfl
  rw [finishRequest, own]
  simp only [forgotten, bind_eq_bind, bind_some]
  rw [dropParent]
  cases childOf : reqState.parentReq with
  | none =>
    refine ⟨_, rfl, indexedNext _, ?_, ?_⟩
    · refine kept.family.shrink _ states parents ?_ ?_
      · exact fun _ member => member
      · intro parentId other child
        obtain ⟨found, liveOther, childOther⟩ := ((others _ parentId other).mp child).2
        exact (kept.family.child other found parentId liveOther childOther).1
    · intro parentId member
      obtain ⟨other, child⟩ := kept.children parentId member
      refine ⟨other, (others _ parentId other).mpr ⟨?_, child⟩⟩
      rintro rfl
      obtain ⟨found, liveOther, childOther⟩ := child
      rw [live] at liveOther
      cases liveOther
      rw [childOf] at childOther
      contradiction
  | some parentId =>
    obtain ⟨held, -, -, parent, found, -, -⟩ := kept.family.child id reqState parentId live childOf
    obtain ⟨left, foundLeft, children⟩ := erased parentId parent childOf found
    have distinct := (kept.family.parent parentId parent found).2.1
    simp only [foundLeft, map_some]
    by_cases empty : left.childRequests = []
    · rw [if_pos empty]
      refine ⟨_, rfl, indexedNext _, ?_, ?_⟩
      · apply kept.family.shrink _ states parents
        · exact fun other member => (mem_filter.mp member).1
        · intro other childId child
          obtain ⟨differs, reqOther, liveOther, childOther⟩ := (others _ other childId).mp child
          obtain ⟨heldOther, -, -, parentOther, foundOther, listed, -⟩ :=
            kept.family.child childId reqOther other liveOther childOther
          refine mem_filter.mpr ⟨heldOther, decide_eq_true ?_⟩
          rintro rfl
          rw [found] at foundOther
          cases foundOther
          have remains := (mem_erase_of_ne differs).mpr listed
          rw [← children, empty] at remains
          exact absurd remains not_mem_nil
      · intro other member
        obtain ⟨memberBefore, differs⟩ := mem_filter.mp member
        obtain ⟨childId, child⟩ := kept.children other memberBefore
        refine ⟨childId, (others _ other childId).mpr ⟨?_, child⟩⟩
        rintro rfl
        obtain ⟨reqOther, liveOther, childOther⟩ := child
        rw [live] at liveOther
        cases liveOther
        rw [childOf] at childOther
        cases childOther
        exact of_decide_eq_true differs rfl
    · rw [if_neg empty]
      refine ⟨_, rfl, indexedNext _, ?_, ?_⟩
      · refine kept.family.shrink _ states parents ?_ ?_
        · exact fun _ member => member
        · intro other childId child
          obtain ⟨reqOther, liveOther, childOther⟩ := ((others _ other childId).mp child).2
          exact (kept.family.child childId reqOther other liveOther childOther).1
      · intro other member
        obtain ⟨childId, child⟩ := kept.children other member
        by_cases same : childId = id
        · subst same
          obtain ⟨reqOther, liveOther, childOther⟩ := child
          rw [live] at liveOther
          cases liveOther
          rw [childOf] at childOther
          cases childOther
          rcases clean parentId parent ⟨reqState, live, childOf⟩ found with
            ⟨sibling, differs, lives⟩ | only
          · exact ⟨sibling, (others _ _ _).mpr ⟨differs, lives⟩⟩
          · exfalso
            apply empty
            rw [children]
            apply eq_nil_iff_forall_not_mem.mpr
            intro sibling remains
            obtain ⟨differs, listed⟩ := distinct.mem_erase_iff.mp remains
            exact differs (only sibling listed)
        · exact ⟨childId, (others _ _ _).mpr ⟨same, child⟩⟩

/-- A request without parent is added or changed. -/
theorem Kept.set (id : RequestId) (after : RequestState)
    (own : after.requestId = id) (noParent : after.parentReq = none)
    (noKeys : self.parents.get? id = none)
    (noChild : ∀ parentId parent, self.parents.get? parentId = some parent →
      ∀ index, id ≠ childReqId parentId index)
    (stays : ∀ parentId, ¬ self.ChildOf parentId id)
    (externals : Dict RequestId (List RequestId))
    (indexed : Indexed { self with
      requestStates := self.requestStates.set id after
      externalReqIds := externals } fun _ => False) :
    Kept { self with
      requestStates := self.requestStates.set id after
      externalReqIds := externals } := by
  have states (other : RequestId) (found : RequestState)
      (live : (self.requestStates.set id after).get? other = some found)
      (child : found.parentReq ≠ none) : self.requestStates.get? other = some found := by
    rw [get?_set] at live
    split at live
    · cases live
      exact absurd noParent child
    · exact live
  refine ⟨indexed, ⟨?_, kept.family.parent, kept.family.held, ?_⟩, ?_⟩
  · intro other found parentId live childOf
    exact kept.family.child other found parentId
      (states other found live (by rw [childOf]; exact some_ne_none _)) childOf
  · intro parentId parent found
    obtain ⟨notLive, noParentKey, children⟩ := kept.family.apart parentId parent found
    refine ⟨?_, noParentKey, ?_⟩
    · rw [get?_set, if_neg, notLive]
      rintro rfl
      rw [noKeys] at found
      contradiction
    · intro index reqState live
      rw [get?_set, if_neg (noChild parentId parent found index).symm] at live
      exact children index reqState live
  · intro parentId member
    obtain ⟨other, reqState, live, childOf⟩ := kept.children parentId member
    refine ⟨other, reqState, ?_, childOf⟩
    rw [get?_set, if_neg, live]
    rintro rfl
    exact stays parentId ⟨reqState, live, childOf⟩

/-- A live session goes on. -/
theorem Kept.change (id : RequestId) (before after : RequestState)
    (live : self.requestStates.get? id = some before) (own : after.requestId = before.requestId)
    (external : after.externalReqId = before.externalReqId) (single : before.parentReq = none)
    (same : after.parentReq = before.parentReq) :
    Kept { self with requestStates := self.requestStates.set before.requestId after } := by
  have ownBefore := kept.indexed.own id before live
  rw [ownBefore]
  apply kept.set id after (own.trans ownBefore) (same.trans single)
  · cases found : self.parents.get? id with
    | none => rfl
    | some parent =>
      rw [(kept.family.apart id parent found).1] at live
      contradiction
  · rintro parentId parent found index rfl
    have childOf := (kept.family.apart parentId parent found).2.2 index before live
    rw [single] at childOf
    contradiction
  · rintro parentId ⟨found, liveAgain, childOf⟩
    rw [live] at liveAgain
    cases liveAgain
    rw [single] at childOf
    contradiction
  · refine ⟨?_, ?_, kept.indexed.distinct, kept.indexed.nonempty⟩
    · intro other found stillLive
      simp only [get?_set] at stillLive
      split at stillLive
      · rename_i equal
        cases stillLive
        exact (own.trans ownBefore).trans equal.symm
      · exact kept.indexed.own other found stillLive
    · intro externalReqId other
      refine (kept.indexed.externalReqIds externalReqId other).trans ?_
      simp only [get?_set]
      by_cases equal : other = id
      · subst equal
        simp [live, external]
      · rw [if_neg equal]

theorem processOutput_kept (output : EngineCoreOutput Prob Logprob Experts)
    (clean : self.ListsNoOther output) :
    ∃ next, self.processOutput output = some next ∧ Kept next := by
  rw [processOutput]
  cases live : self.requestStates.get? output.requestId with
  | none => exact ⟨self, rfl, kept⟩
  | some reqState =>
    have own := kept.indexed.own output.requestId reqState live
    obtain ⟨after, made, parents, erased, unheard⟩ := makeRequestOutput_spec self kept.family
      output.requestId reqState live own rfl output.said output.finalReason output.heldBack
    simp only [made, bind_eq_bind, bind_some]
    by_cases goesOn : output.finalReason = none
    · rw [if_pos goesOn]
      refine ⟨_, rfl, ⟨kept.indexed.congr rfl rfl fun _ _ _ => Iff.rfl, ?_, kept.children⟩⟩
      refine kept.family.shrink _ ?_ parents ?_ ?_
      · exact fun id found stillLive => ⟨stillLive, fun gone => gone.1 goesOn⟩
      · exact fun _ member => member
      · rintro parentId id ⟨found, liveChild, childOf⟩
        exact (kept.family.child id found parentId liveChild childOf).1
    · rw [if_neg goesOn]
      by_cases session : reqState.streamingInput = true
      · rw [if_pos session]
        have single : reqState.parentReq = none := by
          cases childOf : reqState.parentReq with
          | none => rfl
          | some parentId =>
            have closed := (kept.family.child output.requestId reqState parentId live childOf).2.1
            rw [session] at closed
            contradiction
        rw [unheard single]
        refine ⟨_, rfl, kept.change output.requestId reqState _ live ?_ ?_ single ?_⟩
        · split
          · rfl
          · rfl
        · split
          · rfl
          · rfl
        · split
          · rfl
          · rfl
      · rw [if_neg session]
        apply finishRequest_kept kept live
        · exact fun parentId => sameParents_mono (fun _ both => both.2) (parents parentId)
        · exact erased goesOn
        · exact clean goesOn

theorem processOutputs_kept
    (outputs : List (EngineCoreOutput Prob Logprob Experts)) (clean : self.ListsNoOthers outputs) :
    ∃ next, self.processOutputs outputs = some next ∧ Kept next := by
  induction outputs generalizing self with
  | nil => exact ⟨self, rfl, kept⟩
  | cons output rest ih =>
    obtain ⟨middle, done, keptMiddle⟩ := processOutput_kept kept output clean.1
    obtain ⟨next, ended, keptNext⟩ := ih keptMiddle (clean.2 middle done)
    refine ⟨next, ?_, keptNext⟩
    rw [processOutputs, done]
    exact ended

end

/-! Adding. -/

theorem Indexed.add (indexed : Indexed self fun _ => False) (id : RequestId) (after : RequestState)
    (own : after.requestId = id) (fresh : self.requestStates.get? id = none)
    (states : next.requestStates = self.requestStates.set id after)
    (externals : next.externalReqIds =
      self.externalReqIds.set after.externalReqId (self.internalIds after.externalReqId ++ [id])) :
    Indexed next fun _ => False := by
  have lists (externalReqId : RequestId) : next.internalIds externalReqId =
      if externalReqId = after.externalReqId then self.internalIds after.externalReqId ++ [id]
      else self.internalIds externalReqId := by
    rw [internalIds, externals, get?_set]
    split
    · rfl
    · rfl
  have unlisted (externalReqId : RequestId) : id ∉ self.internalIds externalReqId := by
    intro listed
    obtain ⟨⟨reqState, live, -⟩, -⟩ := (indexed.externalReqIds externalReqId id).mp listed
    rw [fresh] at live
    contradiction
  constructor
  · intro other reqState live
    rw [states, get?_set] at live
    split at live
    · rename_i equal
      cases live
      exact own.trans equal.symm
    · exact indexed.own other reqState live
  · intro externalReqId other
    rw [lists, states, get?_set]
    by_cases equal : other = id
    · subst equal
      rw [if_pos rfl]
      by_cases here : externalReqId = after.externalReqId
      · simp [here]
      · rw [if_neg here]
        constructor
        · exact fun listed => absurd listed (unlisted externalReqId)
        · rintro ⟨⟨reqState, live, carries⟩, -⟩
          cases live
          exact absurd carries.symm here
    · rw [if_neg equal]
      refine Iff.trans ?_ (indexed.externalReqIds externalReqId other)
      by_cases here : externalReqId = after.externalReqId
      · simp [here, equal]
      · rw [if_neg here]
  · intro externalReqId
    rw [lists]
    split
    · exact nodup_append.mpr ⟨indexed.distinct _, nodup_singleton id,
        fun first early second late same => unlisted _ (mem_singleton.mp late ▸ same ▸ early)⟩
    · exact indexed.distinct externalReqId
  · intro externalReqId ids found
    rw [externals, get?_set] at found
    split at found
    · cases found
      exact append_ne_nil_of_right_ne_nil _ (cons_ne_nil _ _)
    · exact indexed.nonempty externalReqId ids found

theorem addRequest_kept (kept : Kept self) (request : EngineCoreRequest) (queue : Bool)
    (promised : self.Promised (.add request queue)) :
    ∃ next, self.addRequest request none 0 queue = some next ∧ Kept next := by
  rw [Promised] at promised
  rw [addRequest]
  cases live : self.requestStates.get? request.requestId with
  | some reqState =>
    rw [live] at promised
    have single : reqState.parentReq = none := promised
    have goes (after : RequestState) (own : after.requestId = reqState.requestId)
        (external : after.externalReqId = reqState.externalReqId)
        (parent : after.parentReq = reqState.parentReq) :
        Kept { self with requestStates := self.requestStates.set reqState.requestId after } :=
      kept.change request.requestId reqState after live own external single parent
    simp only
    rw [updateStreamingRequestState]
    by_cases last : request.resumable = false
    · rw [if_pos last]
      split
      · apply finishRequest_kept kept live
        · exact sameParents_refl _ _
        · intro parentId parent childOf
          rw [single] at childOf
          contradiction
        · rintro parentId parent ⟨found, liveAgain, childOf⟩
          rw [live] at liveAgain
          cases liveAgain
          rw [single] at childOf
          contradiction
      · exact ⟨_, rfl, goes _ rfl rfl rfl⟩
      · exact ⟨_, rfl, goes _ rfl rfl rfl⟩
    · rw [if_neg last]
      split
      · exact ⟨_, rfl, goes _ rfl rfl rfl⟩
      · exact ⟨_, rfl, goes _ rfl rfl rfl⟩
  | none =>
    rw [live] at promised
    have isNew : NewId self request.requestId := promised
    refine ⟨_, rfl, kept.set request.requestId _ rfl rfl isNew.noParent isNew.noChild ?_ _ ?_⟩
    · rintro parentId ⟨reqState, impossible, -⟩
      rw [live] at impossible
      contradiction
    · exact kept.indexed.add request.requestId _ rfl live rfl rfl

theorem newParent_kept (kept : Kept self) {requestId : RequestId} (n : Nat)
    {outputKind : RequestOutputKind} (promised : self.Promised (.newParent requestId n outputKind)) :
    Kept { self with
      parents := self.parents.set requestId (ParentRequest.init requestId n outputKind) } := by
  obtain ⟨notLive, isNew, children⟩ := promised
  have known (parentId : RequestId) (parent : ParentRequest Prob Logprob Experts)
      (found : self.parents.get? parentId = some parent) :
      (self.parents.set requestId (ParentRequest.init requestId n outputKind)).get? parentId =
        some parent := by
    rw [get?_set, if_neg, found]
    rintro rfl
    rw [isNew.noParent] at found
    contradiction
  refine ⟨kept.indexed.congr rfl rfl fun _ _ _ => Iff.rfl, ⟨?_, ?_, ?_, ?_⟩, kept.children⟩
  · intro id reqState parentId live childOf
    obtain ⟨held, streaming, chunks, parent, found, rest⟩ :=
      kept.family.child id reqState parentId live childOf
    exact ⟨held, streaming, chunks, parent, known parentId parent found, rest⟩
  · intro parentId parent found
    rw [get?_set] at found
    split at found
    · rename_i same
      cases found
      refine ⟨same.symm, nodup_nil, ?_, fun id member => absurd member not_mem_nil⟩
      intro finalOnly
      have aggregator : (ParentRequest.init requestId n outputKind :
          ParentRequest Prob Logprob Experts).outputAggregator = replicate n none :=
        if_pos finalOnly
      rw [aggregator]
      exact length_replicate
    · exact kept.family.parent parentId parent found
  · intro parentId member
    obtain ⟨parent, found⟩ := kept.family.held parentId member
    exact ⟨parent, known parentId parent found⟩
  · intro parentId parent found
    rw [get?_set] at found
    split at found
    · rename_i same
      subst same
      refine ⟨notLive, fun index => ?_, fun index reqState live => ?_⟩
      · rw [get?_set, if_neg (childReqId_ne parentId index)]
        exact (children index).2
      · rw [(children index).1] at live
        contradiction
    · obtain ⟨notLiveOld, noParent, childrenOld⟩ := kept.family.apart parentId parent found
      refine ⟨notLiveOld, fun index => ?_, childrenOld⟩
      rw [get?_set, if_neg (isNew.noChild parentId parent found index).symm]
      exact noParent index

theorem addChild_kept (kept : Kept self) {parentId externalReqId : RequestId} {index : Nat}
    {queue : Bool} (promised : self.Promised (.addChild parentId externalReqId index queue)) :
    ∃ next, self.addChild parentId externalReqId index queue = some next ∧ Kept next := by
  obtain ⟨parent, found, inside, fresh⟩ := promised
  obtain ⟨own, distinct, length, named⟩ := kept.family.parent parentId parent found
  obtain ⟨notLive, noParent, -⟩ := kept.family.apart parentId parent found
  rw [addChild]
  simp only [found, bind_eq_bind, bind_some]
  rw [addRequest, ParentRequest.getChildInfo, own]
  simp only [fresh]
  refine ⟨_, rfl, kept.indexed.add (childReqId parentId index) _ rfl fresh rfl rfl, ?_, ?_⟩
  · constructor
    · intro id reqState other live childOf
      simp only [get?_set] at live
      split at live
      · rename_i same
        cases live
        cases childOf
        refine ⟨?_, rfl, rfl, _, by rw [get?_set, if_pos rfl], ?_, ?_⟩
        · split
          · assumption
          · exact mem_append_right _ (mem_singleton_self _)
        · rw [same]
          split
          · assumption
          · exact mem_append_right _ (mem_singleton_self _)
        · intro finalOnly
          exact Nat.lt_of_lt_of_eq inside (length finalOnly).symm
      · obtain ⟨held, streaming, chunks, before, foundOther, listed, room⟩ :=
          kept.family.child id reqState other live childOf
        have stillHeld : other ∈ (if parentId ∈ self.parentRequests then self.parentRequests
            else self.parentRequests ++ [parentId]) := by
          split
          · exact held
          · exact mem_append_left _ held
        refine ⟨stillHeld, streaming, chunks, ?_⟩
        rw [get?_set]
        by_cases same : other = parentId
        · subst same
          rw [found] at foundOther
          cases foundOther
          refine ⟨_, if_pos rfl, ?_, room⟩
          split
          · exact listed
          · exact mem_append_left _ listed
        · rw [if_neg same]
          exact ⟨before, foundOther, listed, room⟩
    · intro other after foundAfter
      simp only [get?_set] at foundAfter
      split at foundAfter
      · rename_i same
        subst same
        cases foundAfter
        refine ⟨rfl, ?_, length, ?_⟩
        · split
          · exact distinct
          · rename_i unlisted
            exact nodup_append.mpr ⟨distinct, nodup_singleton _,
              fun first early second late same => unlisted (mem_singleton.mp late ▸ same ▸ early)⟩
        · intro id member
          split at member
          · exact named id member
          · rcases mem_append.mp member with old | new
            · exact named id old
            · exact ⟨index, mem_singleton.mp new⟩
      · exact kept.family.parent other after foundAfter
    · intro other member
      simp only [get?_set]
      by_cases same : other = parentId
      · exact ⟨_, if_pos same⟩
      · rw [if_neg same]
        split at member
        · exact kept.family.held other member
        · rcases mem_append.mp member with old | new
          · exact kept.family.held other old
          · exact absurd (mem_singleton.mp new) same
    · intro other after foundAfter
      have foundBefore : ∃ before, self.parents.get? other = some before := by
        simp only [get?_set] at foundAfter
        split at foundAfter
        · rename_i same
          exact ⟨parent, same ▸ found⟩
        · exact ⟨after, foundAfter⟩
      obtain ⟨before, foundBefore⟩ := foundBefore
      obtain ⟨notLiveOther, noParentOther, children⟩ := kept.family.apart other before foundBefore
      refine ⟨?_, fun i => ?_, fun i reqState live => ?_⟩
      · simp only [get?_set]
        rw [if_neg, notLiveOther]
        rintro rfl
        rw [noParent index] at foundBefore
        contradiction
      · simp only [get?_set]
        rw [if_neg, noParentOther i]
        intro same
        have impossible := noParentOther i
        rw [same, found] at impossible
        contradiction
      · simp only [get?_set] at live
        split at live
        · rename_i same
          cases live
          rw [childReqId_parent same]
          rfl
        · exact children i reqState live
  · intro other member
    by_cases same : other = parentId
    · subst same
      refine ⟨childReqId other index, RequestState.fromNewRequest
        ⟨childReqId other index, externalReqId, false, parent.outputKind⟩ (some other) index queue,
        ?_, rfl⟩
      exact (get?_set ..).trans (if_pos rfl)
    · have old : other ∈ self.parentRequests := by
        split at member
        · exact member
        · rcases mem_append.mp member with old | new
          · exact old
          · exact absurd (mem_singleton.mp new) same
      obtain ⟨id, reqState, live, childOf⟩ := kept.children other old
      refine ⟨id, reqState, ?_, childOf⟩
      simp only [get?_set]
      rw [if_neg, live]
      rintro rfl
      rw [fresh] at live
      contradiction

end VllmDcu.RequestTracking.OutputProcessor

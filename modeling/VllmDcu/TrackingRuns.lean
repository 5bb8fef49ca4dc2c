import VllmDcu.TrackedRequests

/-! The maps of the output processor agree along every run whose aborts keep the families together. -/
namespace VllmDcu.RequestTracking.OutputProcessor
open RequestOutputs
open OutputProcessing (RequestId ParentRequest childReqId)
open List Option Dict

variable {Prob Logprob Experts : Type}
variable {self next : OutputProcessor Prob Logprob Experts}

/-! Aborting. -/

/-- The first loop over distinct ids that are still in the map. -/
theorem collectInternal_spec {removed : RequestId → Prop} {ids : List RequestId}
    (indexed : Indexed self removed) (distinct : ids.Nodup)
    (listed : ∀ id ∈ ids, ∀ reqState, self.requestStates.get? id = some reqState → ¬ removed id) :
    ∃ externals, self.collectInternal ids = some { self with externalReqIds := externals } ∧
      Indexed { self with externalReqIds := externals } fun id => id ∈ ids ∨ removed id := by
  induction ids generalizing self removed with
  | nil =>
    exact ⟨self.externalReqIds, rfl, indexed.congr rfl rfl fun id _ _ => by simp⟩
  | cons id rest ih =>
    obtain ⟨notAgain, distinctRest⟩ := nodup_cons.mp distinct
    rw [collectInternal]
    cases live : self.requestStates.get? id with
    | none =>
      obtain ⟨externals, done, after⟩ := ih indexed distinctRest
        fun other member => listed other (mem_cons_of_mem _ member)
      refine ⟨externals, done, after.congr rfl rfl ?_⟩
      intro other reqState liveOther
      have differs : other ≠ id := by
        rintro rfl
        have : self.requestStates.get? other = some reqState := liveOther
        rw [live] at this
        contradiction
      simp [differs]
    | some reqState =>
      obtain ⟨externals, forgotten, middle⟩ := indexed.forget self id reqState live
        (listed id mem_cons_self reqState live) rfl
      obtain ⟨last, done, after⟩ := ih middle distinctRest (by
        rintro other member found liveOther (rfl | gone)
        · exact notAgain member
        · exact listed other (mem_cons_of_mem _ member) found liveOther gone)
      simp only [forgotten, bind_some]
      refine ⟨last, done, after.congr rfl rfl ?_⟩
      simp only [mem_cons]
      tauto

variable (said : RequestId → CompletionOutput Prob Logprob Experts)

section
variable (recurse : OutputProcessor Prob Logprob Experts → List RequestId → Option (OutputProcessor Prob Logprob Experts × List RequestId))
include recurse

/-- The turn of a live request that is out of the map. -/
theorem abortOne_live (removed : RequestId → Prop) {id : RequestId} {reqState : RequestState}
    (indexed : Indexed self fun other => other = id ∨ removed other) (family : Family self)
    (live : self.requestStates.get? id = some reqState) :
    ∃ next, abortOne said recurse self id = some (next, [id]) ∧ Indexed next removed ∧ Family next ∧
      next.parentRequests = self.parentRequests ∧
      next.requestStates = self.requestStates.erase id := by
  have states (other : RequestId) (found : RequestState)
      (still : (self.requestStates.erase id).get? other = some found) :
      self.requestStates.get? other = some found ∧ ¬ other = id := by
    rw [get?_erase] at still
    split at still
    · contradiction
    · trivial
  have shrinks (after : Dict RequestId (ParentRequest Prob Logprob Experts))
      (parents : ∀ parentId, Option.Rel (SameParent fun other => other = id)
        (self.parents.get? parentId) (after.get? parentId)) :
      Family { self with requestStates := self.requestStates.erase id, parents := after } := by
    refine family.shrink _ states parents ?_ ?_
    · exact fun _ member => member
    · rintro parentId other ⟨found, liveOther, childOf⟩
      exact (family.child other found parentId (states other found liveOther).1 childOf).1
  rw [abortOne]
  simp only [live]
  by_cases queued : reqState.queue = true
  · rw [if_pos queued]
    obtain ⟨after, made, parents, -, -⟩ := makeRequestOutput_spec
      { self with requestStates := self.requestStates.erase id } family id reqState live
      (indexed.own id reqState live) rfl (said id) (some .abort) false
    simp only [made, map_some]
    refine ⟨_, rfl, indexed.pop id rfl rfl, ?_, rfl, rfl⟩
    exact shrinks after fun parentId => sameParents_mono (fun _ both => both.2) (parents parentId)
  · rw [if_neg queued]
    exact ⟨_, rfl, indexed.pop id rfl rfl, shrinks self.parents (sameParents_refl _ _), rfl, rfl⟩

/-- The second loop over ids that are no parents. -/
theorem abortEach_requests
    {removed : RequestId → Prop}
    {ids : List RequestId} (indexed : Indexed self fun id => id ∈ ids ∨ removed id)
    (family : Family self) (requests : ∀ id ∈ ids, id ∉ self.parentRequests) :
    ∃ next aborted, abortEach said recurse self ids = some (next, aborted) ∧
      Indexed next removed ∧ Family next ∧ next.parentRequests = self.parentRequests ∧
      ∀ id, next.requestStates.get? id = if id ∈ ids then none else self.requestStates.get? id := by
  induction ids generalizing self with
  | nil =>
    refine ⟨self, [], rfl, indexed.congr rfl rfl fun id _ _ => ?_, family, rfl, fun id => ?_⟩
    · simp
    · exact (if_neg not_mem_nil).symm
  | cons id rest ih =>
    rw [abortEach]
    cases live : self.requestStates.get? id with
    | none =>
      have skips : abortOne said recurse self id = some (self, []) := by
        rw [abortOne, live]
        exact if_neg (requests id mem_cons_self)
      have left : Indexed self fun other => other ∈ rest ∨ removed other := by
        refine indexed.congr rfl rfl ?_
        intro other reqState liveOther
        have differs : other ≠ id := by
          rintro rfl
          rw [live] at liveOther
          contradiction
        simp [differs]
      obtain ⟨next, aborted, done, indexedNext, familyNext, held, states⟩ :=
        ih left family fun other member => requests other (mem_cons_of_mem _ member)
      simp only [skips, done, bind_eq_bind, bind_some]
      refine ⟨_, _, rfl, indexedNext, familyNext, held, ?_⟩
      intro other
      rw [states]
      by_cases same : other = id
      · subst same
        simp [live]
      · simp [same]
    | some reqState =>
      obtain ⟨middle, one, indexedMiddle, familyMiddle, heldMiddle, statesMiddle⟩ :=
        abortOne_live said recurse (fun other => other ∈ rest ∨ removed other) (indexed.congr rfl rfl fun other _ _ => by simp only [mem_cons]; tauto)
          family live
      obtain ⟨next, aborted, done, indexedNext, familyNext, held, states⟩ :=
        ih indexedMiddle familyMiddle fun other member => by
          rw [heldMiddle]
          exact requests other (mem_cons_of_mem _ member)
      simp only [one, done, bind_eq_bind, bind_some]
      refine ⟨_, _, rfl, indexedNext, familyNext, held.trans heldMiddle, ?_⟩
      intro other
      rw [states, statesMiddle]
      by_cases same : other = id
      · simp [same]
      · simp [same]

end

/-- The turn of a parent: its children are aborted by a call of their own. -/
theorem abortOne_parent (removed : RequestId → Prop) (parentId : RequestId)
    (indexed : Indexed self removed) (family : Family self)
    (member : parentId ∈ self.parentRequests)
    (listed : ∀ id, self.ChildOf parentId id → ¬ removed id) :
    ∃ next aborted, abortOne said
        (fun processor children => abortRequests said 1 processor children true) self parentId =
          some (next, aborted) ∧
      Indexed next removed ∧ Family next ∧
      (∀ other, other ∈ next.parentRequests ↔ other ∈ self.parentRequests ∧ other ≠ parentId) ∧
      ∀ id reqState, next.requestStates.get? id = some reqState ↔
        self.requestStates.get? id = some reqState ∧ reqState.parentReq ≠ some parentId := by
  obtain ⟨parent, found⟩ := family.held parentId member
  obtain ⟨-, distinct, -, named⟩ := family.parent parentId parent found
  obtain ⟨notLive, noParent, children⟩ := family.apart parentId parent found
  -- the live ids in the parent's set are its children
  have isChild (id : RequestId) (reqState : RequestState)
      (live : self.requestStates.get? id = some reqState) :
      id ∈ parent.childRequests ↔ reqState.parentReq = some parentId := by
    constructor
    · intro inside
      obtain ⟨index, rfl⟩ := named id inside
      exact children index reqState live
    · intro childOf
      obtain ⟨-, -, -, other, foundOther, inside, -⟩ :=
        family.child id reqState parentId live childOf
      rw [found] at foundOther
      cases foundOther
      exact inside
  -- the call for the children takes them out
  have aborts : ∃ next aborted,
      abortChildren (fun processor children => abortRequests said 1 processor children true) self
        parent = some (next, aborted) ∧
      Indexed next removed ∧ Family next ∧ next.parentRequests = self.parentRequests ∧
      ∀ id, next.requestStates.get? id =
        if id ∈ parent.childRequests then none else self.requestStates.get? id := by
    rw [abortChildren]
    by_cases childless : parent.childRequests = []
    · rw [childless]
      exact ⟨self, [], rfl, indexed, family, rfl, fun id => (if_neg not_mem_nil).symm⟩
    · rw [if_neg childless, abortRequests, if_pos rfl]
      obtain ⟨externals, collected, middle⟩ := collectInternal_spec indexed
        distinct fun id inside reqState live =>
          listed id ⟨reqState, live, (isChild id reqState live).mp inside⟩
      rw [collected]
      apply abortEach_requests said _ middle
      · exact ⟨family.child, family.parent, family.held, family.apart⟩
      · intro id inside held
        obtain ⟨index, rfl⟩ := named id inside
        obtain ⟨other, foundOther⟩ := family.held _ held
        rw [noParent index] at foundOther
        contradiction
  obtain ⟨next, aborted, done, indexedNext, familyNext, held, states⟩ := aborts
  have alive (id : RequestId) (reqState : RequestState) :
      next.requestStates.get? id = some reqState ↔
        self.requestStates.get? id = some reqState ∧ reqState.parentReq ≠ some parentId := by
    rw [states]
    constructor
    · intro live
      split at live
      · contradiction
      · rename_i outside
        exact ⟨live, fun childOf => outside ((isChild id reqState live).mpr childOf)⟩
    · rintro ⟨live, notChild⟩
      rw [if_neg, live]
      exact fun inside => notChild ((isChild id reqState live).mp inside)
  have filtered (other : RequestId) :
      other ∈ next.parentRequests.filter (fun id => decide (id ≠ parentId)) ↔
        other ∈ self.parentRequests ∧ other ≠ parentId := by
    rw [mem_filter, decide_eq_true_iff, held]
  rw [abortOne]
  simp only [notLive, if_pos member, found, done, bind_eq_bind, bind_some]
  refine ⟨_, _, rfl, indexedNext.congr rfl rfl fun _ _ _ => Iff.rfl, ?_, filtered, alive⟩
  refine familyNext.shrink (fun _ => False) ?_ (sameParents_refl _ _) ?_ ?_
  · exact fun id reqState live => ⟨live, not_false⟩
  · exact fun other inside => (mem_filter.mp inside).1
  · rintro other id ⟨reqState, live, childOf⟩
    refine (filtered other).mpr ?_
    obtain ⟨before, notChild⟩ := (alive id reqState).mp live
    refine ⟨(family.child id reqState other before childOf).1, ?_⟩
    rintro rfl
    exact notChild childOf

/-- The second loop over requests and parents, each child before its parent. -/
theorem abortEach_spec (ids : List RequestId) (indexed : Indexed self fun id => id ∈ ids)
    (family : Family self)
    (childrenFirst : ∀ before parentId after, ids = before ++ parentId :: after →
      ∀ id ∈ after, ¬ self.ChildOf parentId id) :
    ∃ next aborted, abortEach said
        (fun processor children => abortRequests said 1 processor children true) self ids =
          some (next, aborted) ∧
      Indexed next (fun _ => False) ∧ Family next ∧
      (∀ parentId, parentId ∈ next.parentRequests ↔
        parentId ∈ self.parentRequests ∧ parentId ∉ ids) ∧
      ∀ id reqState, next.requestStates.get? id = some reqState ↔
        self.requestStates.get? id = some reqState ∧ id ∉ ids ∧
          ∀ parentId ∈ ids, reqState.parentReq ≠ some parentId := by
  induction ids generalizing self with
  | nil =>
    refine ⟨self, [], rfl, indexed.congr rfl rfl fun id _ _ => ?_, family, fun parentId => ?_,
      fun id reqState => ?_⟩
    · simp
    · simp
    · simp
  | cons id rest ih =>
    -- a shorter list over fewer requests keeps the order
    have later {middle : OutputProcessor Prob Logprob Experts}
        (fewer : ∀ other reqState, middle.requestStates.get? other = some reqState →
          self.requestStates.get? other = some reqState) :
        ∀ before parentId after, rest = before ++ parentId :: after →
          ∀ other ∈ after, ¬ middle.ChildOf parentId other := by
      rintro before parentId after rfl other member ⟨reqState, live, childOf⟩
      exact childrenFirst (id :: before) parentId after rfl other member
        ⟨reqState, fewer other reqState live, childOf⟩
    have held (other : RequestId) (reqState : RequestState) (parentId : RequestId)
        (live : self.requestStates.get? other = some reqState)
        (childOf : reqState.parentReq = some parentId) : parentId ∈ self.parentRequests :=
      (family.child other reqState parentId live childOf).1
    rw [abortEach]
    cases live : self.requestStates.get? id with
    | some reqState =>
      have noParent : id ∉ self.parentRequests := by
        intro member
        obtain ⟨parent, found⟩ := family.held id member
        rw [(family.apart id parent found).1] at live
        contradiction
      obtain ⟨middle, one, indexedMiddle, familyMiddle, heldMiddle, statesMiddle⟩ :=
        abortOne_live said (fun processor children => abortRequests said 1 processor children true)
          (fun other => other ∈ rest)
          (indexed.congr rfl rfl fun other _ _ => mem_cons) family live
      have alive (other : RequestId) (found : RequestState) :
          middle.requestStates.get? other = some found ↔
            other ≠ id ∧ self.requestStates.get? other = some found := by
        rw [statesMiddle]
        by_cases same : other = id
        · simp [same]
        · simp [same]
      obtain ⟨next, aborted, done, indexedNext, familyNext, parents, states⟩ :=
        ih indexedMiddle familyMiddle
          (later fun other found stays => ((alive other found).mp stays).2)
      simp only [one, done, bind_eq_bind, bind_some]
      refine ⟨_, _, rfl, indexedNext, familyNext, fun parentId => ?_, fun other found => ?_⟩
      · rw [parents, heldMiddle, mem_cons, not_or]
        constructor
        · exact fun ⟨member, outside⟩ => ⟨member, fun same => noParent (same ▸ member), outside⟩
        · exact fun ⟨member, _, outside⟩ => ⟨member, outside⟩
      · rw [states, alive]
        simp only [mem_cons, not_or, forall_eq_or_imp]
        constructor
        · rintro ⟨⟨differs, stays⟩, outside, apart⟩
          exact ⟨stays, ⟨differs, outside⟩,
            fun childOf => noParent (held other found id stays childOf), apart⟩
        · rintro ⟨stays, ⟨differs, outside⟩, -, apart⟩
          exact ⟨⟨differs, stays⟩, outside, apart⟩
    | none =>
      have indexedRest : Indexed self fun other => other ∈ rest := by
        refine indexed.congr rfl rfl ?_
        intro other reqState liveOther
        have differs : other ≠ id := by
          rintro rfl
          rw [live] at liveOther
          contradiction
        simp [differs]
      have dead (other : RequestId) (found : RequestState)
          (stays : self.requestStates.get? other = some found) : other ≠ id := by
        rintro rfl
        rw [live] at stays
        contradiction
      by_cases member : id ∈ self.parentRequests
      · obtain ⟨middle, abortedOne, one, indexedMiddle, familyMiddle, parentsMiddle, alive⟩ :=
          abortOne_parent said (fun other => other ∈ rest) id indexedRest family member
            fun other child inside => childrenFirst [] id rest rfl other inside child
        obtain ⟨next, aborted, done, indexedNext, familyNext, parents, states⟩ :=
          ih indexedMiddle familyMiddle
            (later fun other found stays => ((alive other found).mp stays).1)
        simp only [one, done, bind_eq_bind, bind_some]
        refine ⟨_, _, rfl, indexedNext, familyNext, fun parentId => ?_, fun other found => ?_⟩
        · rw [parents, parentsMiddle, mem_cons, not_or, and_assoc]
        · rw [states, alive]
          simp only [mem_cons, not_or, forall_eq_or_imp]
          constructor
          · rintro ⟨⟨stays, notChild⟩, outside, apart⟩
            exact ⟨stays, ⟨dead other found stays, outside⟩, notChild, apart⟩
          · rintro ⟨stays, ⟨-, outside⟩, notChild, apart⟩
            exact ⟨⟨stays, notChild⟩, outside, apart⟩
      · have skips : abortOne said
            (fun processor children => abortRequests said 1 processor children true) self id =
              some (self, []) := by
          rw [abortOne, live]
          exact if_neg member
        obtain ⟨next, aborted, done, indexedNext, familyNext, parents, states⟩ :=
          ih indexedRest family (later fun _ _ stays => stays)
        simp only [skips, done, bind_eq_bind, bind_some]
        refine ⟨_, _, rfl, indexedNext, familyNext, fun parentId => ?_, fun other found => ?_⟩
        · rw [parents, mem_cons, not_or]
          constructor
          · exact fun ⟨inside, outside⟩ => ⟨inside, fun same => member (same ▸ inside), outside⟩
          · exact fun ⟨inside, _, outside⟩ => ⟨inside, outside⟩
        · rw [states]
          simp only [mem_cons, not_or, forall_eq_or_imp]
          constructor
          · rintro ⟨stays, outside, apart⟩
            exact ⟨stays, ⟨dead other found stays, outside⟩,
              fun childOf => member (held other found id stays childOf), apart⟩
          · rintro ⟨stays, ⟨-, outside⟩, -, apart⟩
            exact ⟨stays, outside, apart⟩

/-- The first loop over external ids finds the live requests that carry one of them. -/
theorem collectExternal_spec {removed : RequestId → Prop} (ids : List RequestId)
    (indexed : Indexed self removed) :
    ∃ externals, (self.collectExternal ids).1 = { self with externalReqIds := externals } ∧
      Indexed { self with externalReqIds := externals }
        (fun id => id ∈ (self.collectExternal ids).2 ∨ removed id) ∧
      ∀ id, id ∈ (self.collectExternal ids).2 ↔ ∃ reqState,
        self.requestStates.get? id = some reqState ∧ reqState.externalReqId ∈ ids ∧ ¬ removed id := by
  induction ids generalizing self removed with
  | nil =>
    refine ⟨self.externalReqIds, rfl, indexed.congr rfl rfl fun id _ _ => ?_, fun id => ?_⟩
    · simp [collectExternal]
    · simp [collectExternal]
  | cons external rest ih =>
    have lists (externalReqId : RequestId) :
        internalIds { self with externalReqIds := self.externalReqIds.erase external }
          externalReqId = if externalReqId = external then [] else self.internalIds externalReqId := by
      rw [internalIds, get?_erase]
      split
      · rfl
      · rfl
    have popped : Indexed { self with externalReqIds := self.externalReqIds.erase external }
        fun id => id ∈ self.internalIds external ∨ removed id := by
      refine ⟨indexed.own, ?_, ?_, ?_⟩
      · intro externalReqId id
        rw [lists]
        by_cases here : externalReqId = external
        · subst here
          rw [if_pos rfl]
          constructor
          · exact fun member => absurd member not_mem_nil
          · rintro ⟨carried, kept⟩
            exact absurd (Or.inl ((indexed.externalReqIds externalReqId id).mpr
              ⟨carried, fun gone => kept (Or.inr gone)⟩)) kept
        · rw [if_neg here, indexed.externalReqIds]
          constructor
          · rintro ⟨⟨reqState, live, carries⟩, kept⟩
            refine ⟨⟨reqState, live, carries⟩, ?_⟩
            rintro (listed | gone)
            · obtain ⟨⟨other, liveOther, carriesOther⟩, -⟩ :=
                (indexed.externalReqIds external id).mp listed
              rw [live] at liveOther
              cases liveOther
              exact here (carries.symm.trans carriesOther)
            · exact kept gone
          · rintro ⟨carried, kept⟩
            exact ⟨carried, fun gone => kept (Or.inr gone)⟩
      · intro externalReqId
        rw [lists]
        split
        · exact nodup_nil
        · exact indexed.distinct externalReqId
      · intro externalReqId found listed
        rw [get?_erase] at listed
        split at listed
        · contradiction
        · exact indexed.nonempty externalReqId found listed
    obtain ⟨externals, same, after, members⟩ := ih popped
    rw [collectExternal]
    refine ⟨externals, same, after.congr rfl rfl fun id _ _ => ?_, fun id => ?_⟩
    · simp only [mem_append]
      tauto
    · rw [mem_append, members, indexed.externalReqIds]
      constructor
      · rintro (⟨⟨reqState, live, carries⟩, kept⟩ | ⟨reqState, live, carries, kept⟩)
        · exact ⟨reqState, live, carries ▸ mem_cons_self, kept⟩
        · exact ⟨reqState, live, mem_cons_of_mem _ carries, fun gone => kept (Or.inr gone)⟩
      · rintro ⟨reqState, live, carries, kept⟩
        by_cases here : reqState.externalReqId = external
        · exact Or.inl ⟨⟨reqState, live, here⟩, kept⟩
        · refine Or.inr ⟨reqState, live, (mem_cons.mp carries).resolve_left here, ?_⟩
          rintro (⟨⟨other, liveOther, carriesOther⟩, -⟩ | gone)
          · rw [live] at liveOther
            cases liveOther
            exact here carriesOther
          · exact kept gone

theorem abortRequests_kept (kept : Kept self) {requestIds : List RequestId} {internal : Bool}
    {said : RequestId → CompletionOutput Prob Logprob Experts} (distinct : requestIds.Nodup)
    (clean : KeepsFamilies self requestIds internal) :
    ∃ next aborted, abortRequests said 2 self requestIds internal = some (next, aborted) ∧
      Kept next := by
  have sameFamily (externals : Dict RequestId (List RequestId)) :
      Family { self with externalReqIds := externals } :=
    ⟨kept.family.child, kept.family.parent, kept.family.held, kept.family.apart⟩
  rw [abortRequests]
  cases internal with
  | true =>
    obtain ⟨externals, collected, middle⟩ := collectInternal_spec kept.indexed distinct
      fun _ _ _ _ => not_false
    rw [collected]
    obtain ⟨next, aborted, done, indexed, family, parents, states⟩ := abortEach_spec said
      requestIds (middle.congr rfl rfl fun _ _ _ => or_iff_left not_false) (sameFamily externals)
      (clean.childrenFirst rfl)
    refine ⟨next, aborted, done, indexed, family, ?_⟩
    intro parentId member
    obtain ⟨held, outside⟩ := (parents parentId).mp member
    rcases clean.keepsChild parentId held with ⟨-, named⟩ | ⟨id, reqState, live, childOf, stays⟩
    · exact absurd named outside
    · refine ⟨id, reqState, (states id reqState).mpr ⟨live, stays, ?_⟩, childOf⟩
      intro other named equal
      rw [childOf] at equal
      cases equal
      exact outside named
  | false =>
    obtain ⟨externals, same, middle, members⟩ := collectExternal_spec requestIds kept.indexed
    dsimp only
    rw [same]
    obtain ⟨next, aborted, done, indexed, family, parents, states⟩ := abortEach_requests said
      (fun processor children => abortRequests said 1 processor children true) middle
      (sameFamily externals) (by
        intro id member held
        obtain ⟨reqState, live, -⟩ := (members id).mp member
        obtain ⟨parent, found⟩ := kept.family.held id held
        rw [(kept.family.apart id parent found).1] at live
        contradiction)
    refine ⟨next, aborted, done, indexed, family, ?_⟩
    intro parentId member
    rw [parents] at member
    rcases clean.keepsChild parentId member with ⟨impossible, -⟩ | ⟨id, reqState, live, childOf, stays⟩
    · contradiction
    · refine ⟨id, reqState, ?_, childOf⟩
      rw [states, if_neg, live]
      intro collectedId
      obtain ⟨found, liveAgain, carried, -⟩ := (members id).mp collectedId
      rw [live] at liveAgain
      cases liveAgain
      exact stays carried

/-! Runs. -/

theorem step_kept (kept : Kept self) (step : Step Prob Logprob Experts)
    (promised : self.Promised step) (clean : self.Clean step) :
    ∃ next, self.step step = some next ∧ Kept next := by
  cases step with
  | newParent requestId n outputKind =>
    exact ⟨_, rfl, newParent_kept kept n promised⟩
  | addChild parentId externalReqId index queue =>
    exact addChild_kept kept promised
  | add request queue => exact addRequest_kept kept request queue promised
  | processOutputs outputs => exact processOutputs_kept kept outputs clean
  | abort requestIds internal said =>
    obtain ⟨next, aborted, done, keptNext⟩ := abortRequests_kept kept promised clean
    refine ⟨next, ?_, keptNext⟩
    rw [OutputProcessor.step, done, map_some]

theorem init_kept : Kept (init : OutputProcessor Prob Logprob Experts) := by
  refine ⟨⟨?_, ?_, ?_, ?_⟩, ⟨?_, ?_, ?_, ?_⟩, ?_⟩
  · exact nofun
  · exact fun _ _ => ⟨fun member => absurd member not_mem_nil, fun ⟨⟨_, live, _⟩, _⟩ => nomatch live⟩
  · exact fun _ => nodup_nil
  · exact nofun
  · exact nofun
  · exact nofun
  · exact fun _ member => absurd member not_mem_nil
  · exact nofun
  · exact fun _ member => absurd member not_mem_nil

theorem run_kept (kept : Kept self) (steps : List (Step Prob Logprob Experts))
    (promised : PromisedRun self steps) (clean : CleanRun self steps) : TracksRun self steps := by
  induction steps generalizing self with
  | nil => exact kept.tracks
  | cons step rest ih =>
    obtain ⟨next, done, keptNext⟩ := step_kept kept step promised.1 clean.1
    exact ⟨kept.tracks, next, done, ih keptNext (promised.2 next done) (clean.2 next done)⟩

/-- In every run whose aborts leave each parent a child or name the parent, every call returns and the
maps agree with the live requests. -/
theorem cleanRun_tracks (steps : List (Step Prob Logprob Experts)) (promised : PromisedRun init steps)
    (clean : CleanRun init steps) : TracksRun init steps :=
  run_kept init_kept steps promised clean

/-! Two children share the external id `x` with a single request; the first finishes, and the abort
names the parent. -/

def quiet : CompletionOutput Unit Unit Unit :=
  ⟨0, [], [], none, none, false, none, none, none⟩

def fanOut : List (Step Unit Unit Unit) :=
  [.newParent ['p'] 2 .delta, .addChild ['p'] ['x'] 0 true, .addChild ['p'] ['x'] 1 true]

theorem two_le_childReqId (parentId : RequestId) (index : Nat) :
    2 ≤ (childReqId parentId index).length := by
  have digits : 0 < (Nat.toDigits 10 index).length := Nat.length_toDigits_pos
  rw [childReqId, length_append, length_cons]
  omega

theorem namedParent_tracks :
    TracksRun init (fanOut ++ [.add ⟨['s'], ['x'], false, .delta⟩ true,
      .processOutputs [⟨['0', '_', 'p'], some .stop, false, false, quiet⟩],
      .abort [['p']] true fun _ => quiet]) := by
  apply cleanRun_tracks
  · refine ⟨⟨rfl, ⟨rfl, nofun⟩, fun _ => ⟨rfl, rfl⟩⟩, fun next ended => ?_⟩
    cases ended
    refine ⟨⟨_, rfl, by decide, rfl⟩, fun next ended => ?_⟩
    cases ended
    refine ⟨⟨_, rfl, by decide, rfl⟩, fun next ended => ?_⟩
    cases ended
    refine ⟨⟨rfl, ?_⟩, fun next ended => ?_⟩
    · intro parentId parent found index same
      have long := two_le_childReqId parentId index
      rw [← same] at long
      exact absurd long (by decide)
    refine ⟨trivial, fun next ended => ?_⟩
    refine ⟨nodup_singleton _, fun next ended => ?_⟩
    trivial
  · refine ⟨trivial, fun next ended => ?_⟩
    cases ended
    refine ⟨trivial, fun next ended => ?_⟩
    cases ended
    refine ⟨trivial, fun next ended => ?_⟩
    cases ended
    refine ⟨trivial, fun next ended => ?_⟩
    cases ended
    refine ⟨⟨?_, fun _ _ => trivial⟩, fun next ended => ?_⟩
    · -- the other child is still live
      rintro - parentId parent ⟨reqState, live, childOf⟩ -
      cases live
      cases childOf
      exact Or.inl ⟨['1', '_', 'p'], by decide, _, rfl, rfl⟩
    cases ended
    refine ⟨⟨?_, ?_⟩, fun next ended => ?_⟩
    · intro parentId member
      have named : parentId ∈ [['p']] := member
      exact Or.inl ⟨rfl, named⟩
    · intro _ before parentId after split id later
      have lengths := congrArg List.length split
      have nonempty := length_pos_of_mem later
      simp only [length_append, length_cons, length_nil] at lengths
      omega
    trivial

/-- An abort by the external id takes both children, and the parent stays. -/
theorem externalAbort_notTracks :
    PromisedRun init (fanOut ++ [.abort [['x']] false fun _ => quiet]) ∧
      ¬ TracksRun init (fanOut ++ [.abort [['x']] false fun _ => quiet]) := by
  constructor
  · refine ⟨⟨rfl, ⟨rfl, nofun⟩, fun _ => ⟨rfl, rfl⟩⟩, fun next ended => ?_⟩
    cases ended
    refine ⟨⟨_, rfl, by decide, rfl⟩, fun next ended => ?_⟩
    cases ended
    refine ⟨⟨_, rfl, by decide, rfl⟩, fun next ended => ?_⟩
    exact ⟨nodup_singleton _, fun _ _ => trivial⟩
  · rintro ⟨-, first, doneFirst, -, second, doneSecond, -, third, doneThird, -, last, done, tracks⟩
    cases doneFirst
    cases doneSecond
    cases doneThird
    cases done
    obtain ⟨id, reqState, live, -⟩ := (tracks.parentRequests ['p']).mp (mem_singleton_self _)
    contradiction

end VllmDcu.RequestTracking.OutputProcessor

import VllmDcu.CacheHitRules

/-! The attention groups of the hybrid coordinator: every KV cache group lies in
the one group of its spec, full attention first. -/
namespace VllmDcu.AttentionGroups
open KVCacheInterface CacheHit List

structure Grouping (specs : List KVCacheSpec) (groups : List AttentionGroup) : Prop where
  distinct : groups.Pairwise fun first second => first.spec ≠ second.spec
  mem_ids : ∀ group ∈ groups, ∀ groupId,
    groupId ∈ group.groupIds ↔ specs[groupId]? = some group.spec
  nonempty : ∀ group ∈ groups, group.groupIds ≠ []
  nodup : ∀ group ∈ groups, group.groupIds.Nodup
  cover : ∀ spec ∈ specs, ∃ group ∈ groups, group.spec = spec

theorem mem_addToGroup (spec : KVCacheSpec) (groupId : Nat) (groups : List AttentionGroup)
    (distinct : groups.Pairwise fun first second => first.spec ≠ second.spec)
    (group : AttentionGroup) :
    group ∈ addToGroup spec groupId groups ↔
      (group ∈ groups ∧ group.spec ≠ spec) ∨
        (∃ old ∈ groups, old.spec = spec ∧ group = ⟨spec, old.groupIds ++ [groupId]⟩) ∨
        (∀ old ∈ groups, old.spec ≠ spec) ∧ group = ⟨spec, [groupId]⟩ := by
  induction groups with
  | nil => simp [addToGroup]
  | cons first rest ih =>
    obtain ⟨apart, distinctRest⟩ := pairwise_cons.mp distinct
    by_cases same : first.spec = spec
    · have others : ∀ old ∈ rest, old.spec ≠ spec := fun old member equal =>
        apart old member (same.trans equal.symm)
      simp only [addToGroup, same, ↓reduceIte, mem_cons]
      constructor
      · rintro (rfl | member)
        · exact Or.inr (Or.inl ⟨first, Or.inl rfl, same, rfl⟩)
        · exact Or.inl ⟨Or.inr member, others group member⟩
      · rintro (⟨rfl | member, differs⟩ | ⟨old, rfl | member, equal, rfl⟩ | ⟨none, rfl⟩)
        · exact absurd same differs
        · exact Or.inr member
        · exact Or.inl rfl
        · exact absurd equal (others old member)
        · exact absurd same (none first (Or.inl rfl))
    · simp only [addToGroup, same, ↓reduceIte, mem_cons, ih distinctRest]
      constructor
      · rintro (rfl | ⟨member, differs⟩ | ⟨old, member, equal, rfl⟩ | ⟨none, rfl⟩)
        · exact Or.inl ⟨Or.inl rfl, same⟩
        · exact Or.inl ⟨Or.inr member, differs⟩
        · exact Or.inr (Or.inl ⟨old, Or.inr member, equal, rfl⟩)
        · refine Or.inr (Or.inr ⟨?_, rfl⟩)
          rintro old (rfl | member)
          · exact same
          · exact none old member
      · rintro (⟨rfl | member, differs⟩ | ⟨old, rfl | member, equal, rfl⟩ | ⟨none, rfl⟩)
        · exact Or.inl rfl
        · exact Or.inr (Or.inl ⟨member, differs⟩)
        · exact absurd equal same
        · exact Or.inr (Or.inr (Or.inl ⟨old, member, equal, rfl⟩))
        · exact Or.inr (Or.inr (Or.inr ⟨fun old member => none old (Or.inr member), rfl⟩))

theorem addToGroup_distinct (spec : KVCacheSpec) (groupId : Nat) (groups : List AttentionGroup)
    (distinct : groups.Pairwise fun first second => first.spec ≠ second.spec) :
    (addToGroup spec groupId groups).Pairwise fun first second => first.spec ≠ second.spec := by
  induction groups with
  | nil => exact pairwise_singleton _ _
  | cons first rest ih =>
    obtain ⟨apart, distinctRest⟩ := pairwise_cons.mp distinct
    by_cases same : first.spec = spec
    · simp only [addToGroup, same, ↓reduceIte]
      exact pairwise_cons.mpr ⟨fun old member => same ▸ apart old member, distinctRest⟩
    · simp only [addToGroup, same, ↓reduceIte]
      refine pairwise_cons.mpr ⟨?_, ih distinctRest⟩
      intro group member
      rcases (mem_addToGroup spec groupId rest distinctRest group).mp member with
        ⟨old, _⟩ | ⟨_, _, _, rfl⟩ | ⟨_, rfl⟩
      · exact apart group old
      · exact same
      · exact same

variable (specs : List KVCacheSpec)

theorem split_grouping : Grouping specs (splitKvCacheGroups specs) := by
  induction specs using reverseRecOn with
  | nil => exact ⟨List.Pairwise.nil, by simp [splitKvCacheGroups], by simp [splitKvCacheGroups],
      by simp [splitKvCacheGroups], by simp⟩
  | append_singleton init spec ih =>
    have split : splitKvCacheGroups (init ++ [spec]) =
        addToGroup spec init.length (splitKvCacheGroups init) := by
      simp [splitKvCacheGroups, zipIdx_append]
    have member := mem_addToGroup spec init.length (splitKvCacheGroups init) ih.distinct
    have fresh (group : AttentionGroup) (old : group ∈ splitKvCacheGroups init) :
        init.length ∉ group.groupIds := by
      rw [ih.mem_ids group old]
      simp
    have atIndex (groupId : Nat) (other : KVCacheSpec) :
        (init ++ [spec])[groupId]? = some other ↔
          init[groupId]? = some other ∨ groupId = init.length ∧ spec = other := by
      rcases Nat.lt_trichotomy groupId init.length with below | same | above
      · simp [getElem?_append_left below, Nat.ne_of_lt below]
      · subst same
        simp
      · rw [getElem?_eq_none (by rw [length_append]; exact above),
          getElem?_eq_none (Nat.le_of_lt above)]
        simp [Nat.ne_of_gt above]
    rw [split]
    refine ⟨addToGroup_distinct _ _ _ ih.distinct, ?_, ?_, ?_, ?_⟩
    · intro group inNew groupId
      rw [atIndex]
      rcases (member group).mp inNew with ⟨old, differs⟩ | ⟨old, inOld, equal, rfl⟩ | ⟨none, rfl⟩
      · rw [ih.mem_ids group old]
        simp [Ne.symm differs]
      · simp [ih.mem_ids old inOld, equal]
      · have absent : init[groupId]? ≠ some spec := by
          intro present
          obtain ⟨group, inOld, equal⟩ := ih.cover spec (mem_of_getElem? present)
          exact none group inOld equal
        simp [absent]
    · intro group inNew
      rcases (member group).mp inNew with ⟨old, _⟩ | ⟨old, _, _, rfl⟩ | ⟨_, rfl⟩
      · exact ih.nonempty group old
      · simp
      · simp
    · intro group inNew
      rcases (member group).mp inNew with ⟨old, _⟩ | ⟨old, inOld, _, rfl⟩ | ⟨_, rfl⟩
      · exact ih.nodup group old
      · have := fresh old inOld
        rw [nodup_append]
        refine ⟨ih.nodup old inOld, by simp, ?_⟩
        rintro a inIds b same rfl
        exact this (mem_singleton.mp same ▸ inIds)
      · simp
    · intro other inNew
      by_cases same : other = spec
      · subst same
        by_cases some : ∃ old ∈ splitKvCacheGroups init, old.spec = other
        · obtain ⟨old, inOld, equal⟩ := some
          exact ⟨_, (member _).mpr (Or.inr (Or.inl ⟨old, inOld, equal, rfl⟩)), rfl⟩
        · refine ⟨_, (member _).mpr (Or.inr (Or.inr ⟨?_, rfl⟩)), rfl⟩
          intro old inOld equal
          exact some ⟨old, inOld, equal⟩
      · have inInit : other ∈ init := by
          rcases mem_append.mp inNew with old | new
          · exact old
          · exact absurd (mem_singleton.mp new) same
        obtain ⟨group, inOld, equal⟩ := ih.cover other inInit
        exact ⟨group, (member group).mpr (Or.inl ⟨inOld, equal ▸ same⟩), equal⟩

theorem mem_attentionGroups {group : AttentionGroup} :
    group ∈ attentionGroups specs ↔ group ∈ splitKvCacheGroups specs := by
  simp only [attentionGroups, mem_append, mem_filter, Bool.not_eq_true']
  cases group.spec.isFullAttention <;> simp

theorem attentionGroups_grouping : Grouping specs (attentionGroups specs) := by
  have split := split_grouping specs
  refine ⟨?_, ?_, ?_, ?_, ?_⟩
  · exact ((filter_append_perm _ _).pairwise_iff fun differs => Ne.symm differs).mpr
      split.distinct
  · exact fun group member => split.mem_ids group ((mem_attentionGroups specs).mp member)
  · exact fun group member => split.nonempty group ((mem_attentionGroups specs).mp member)
  · exact fun group member => split.nodup group ((mem_attentionGroups specs).mp member)
  · intro spec member
    obtain ⟨group, inSplit, equal⟩ := split.cover spec member
    exact ⟨group, (mem_attentionGroups specs).mpr inSplit, equal⟩

theorem blockSize_dvd_lcm (group : AttentionGroup) (member : group ∈ attentionGroups specs) :
    group.spec.blockSize ∣ lcmBlockSize specs := by
  rw [mem_attentionGroups] at member
  unfold lcmBlockSize
  generalize splitKvCacheGroups specs = groups at member ⊢
  induction groups with
  | nil => simp at member
  | cons first rest ih =>
    rcases mem_cons.mp member with rfl | later
    · exact Nat.dvd_lcm_left _ _
    · exact (ih later).trans (Nat.dvd_lcm_right _ _)

end VllmDcu.AttentionGroups

import VllmDcu.BatchSlots

/-! The batch holds its table: what each operation of the worker does to the table is
what it does to the arrays, lists, sets and dictionaries. -/
namespace VllmDcu.BatchTracks
open Requests (Token ReqId)
open LogitsProcessors PersistentBatch Slots BatchSlots List Option Function Dict
variable {Num : Type}

/-! Sets and dictionaries keyed by request id. -/

variable (ids : Finset ReqId)

theorem IdSet.congr (slots slots' : Table Num) (wanted : CachedRequestState Num → Prop)
    (known : IdSet ids slots wanted)
    (same : ∀ request, Holds slots' request ↔ Holds slots request) : IdSet ids slots' wanted := by
  intro reqId
  rw [known reqId]
  exact exists_congr fun request => and_congr_left' (same request).symm

theorem IdSet.erase (slots slots' : Table Num) (wanted : CachedRequestState Num → Prop)
    (reqId : ReqId) (known : IdSet ids slots wanted)
    (left : ∀ request, Holds slots' request ↔ Holds slots request ∧ request.reqId ≠ reqId) :
    IdSet (ids.erase reqId) slots' wanted := by
  intro other
  rw [Finset.mem_erase, known other]
  constructor
  · rintro ⟨different, request, held, rfl, asked⟩
    exact ⟨request, (left request).mpr ⟨held, different⟩, rfl, asked⟩
  · rintro ⟨request, held, rfl, asked⟩
    obtain ⟨before, different⟩ := (left request).mp held
    exact ⟨different, request, before, rfl, asked⟩

theorem IdSet.insertIf (slots slots' : Table Num) (wanted : CachedRequestState Num → Prop)
    (request : CachedRequestState Num) [Decidable (wanted request)] (known : IdSet ids slots wanted)
    (came : ∀ other, Holds slots' other ↔ other = request ∨ Holds slots other) :
    IdSet (InputBatch.insertIf (wanted request) ids request.reqId) slots' wanted := by
  intro reqId
  unfold InputBatch.insertIf
  by_cases asked : wanted request
  · rw [if_pos asked, Finset.mem_insert, known reqId]
    constructor
    · rintro (rfl | ⟨other, held, rfl, asks⟩)
      · exact ⟨request, (came request).mpr (Or.inl rfl), rfl, asked⟩
      · exact ⟨other, (came other).mpr (Or.inr held), rfl, asks⟩
    · rintro ⟨other, held, rfl, asks⟩
      rcases (came other).mp held with rfl | before
      · exact Or.inl rfl
      · exact Or.inr ⟨other, before, rfl, asks⟩
  · rw [if_neg asked, known reqId]
    constructor
    · rintro ⟨other, held, same, asks⟩
      exact ⟨other, (came other).mpr (Or.inr held), same, asks⟩
    · rintro ⟨other, held, same, asks⟩
      rcases (came other).mp held with rfl | before
      · exact absurd asks asked
      · exact ⟨other, before, same, asks⟩

variable {Value : Type} (entries : Dict ReqId Value)

theorem IdMap.congr (slots slots' : Table Num) (value : CachedRequestState Num → Option Value)
    (known : IdMap entries slots value)
    (same : ∀ request, Holds slots' request ↔ Holds slots request) :
    IdMap entries slots' value := by
  intro reqId v
  rw [known reqId v]
  exact exists_congr fun request => and_congr_left' (same request).symm

theorem IdMap.erase (slots slots' : Table Num) (value : CachedRequestState Num → Option Value)
    (reqId : ReqId) (known : IdMap entries slots value)
    (left : ∀ request, Holds slots' request ↔ Holds slots request ∧ request.reqId ≠ reqId) :
    IdMap (entries.erase reqId) slots' value := by
  intro other v
  rw [get?_erase]
  by_cases same : other = reqId
  · subst same
    simp only [↓reduceIte, reduceCtorEq, false_iff, not_exists, not_and]
    intro request held here
    exact absurd here ((left request).mp held).2
  · rw [if_neg same, known other v]
    constructor
    · rintro ⟨request, held, rfl, asked⟩
      exact ⟨request, (left request).mpr ⟨held, same⟩, rfl, asked⟩
    · rintro ⟨request, held, rfl, asked⟩
      exact ⟨request, ((left request).mp held).1, rfl, asked⟩

theorem IdMap.set (slots slots' : Table Num) (value : CachedRequestState Num → Option Value)
    (request : CachedRequestState Num) (known : IdMap entries slots value)
    (fresh : ∀ other, Holds slots other → other.reqId ≠ request.reqId)
    (came : ∀ other, Holds slots' other ↔ other = request ∨ Holds slots other) :
    IdMap (setIfPresent entries request.reqId (value request)) slots' value := by
  intro reqId v
  have others : (∃ other, Holds slots' other ∧ other.reqId = reqId ∧ value other = some v) ↔
      (request.reqId = reqId ∧ value request = some v) ∨ entries.get? reqId = some v := by
    rw [known reqId v]
    constructor
    · rintro ⟨other, held, same, asks⟩
      rcases (came other).mp held with rfl | before
      · exact Or.inl ⟨same, asks⟩
      · exact Or.inr ⟨other, before, same, asks⟩
    · rintro (⟨same, asks⟩ | ⟨other, held, same, asks⟩)
      · exact ⟨request, (came request).mpr (Or.inl rfl), same, asks⟩
      · exact ⟨other, (came other).mpr (Or.inr held), same, asks⟩
  rw [others]
  cases asked : value request with
  | none => simp [setIfPresent]
  | some w =>
    -- The newcomer had no entry, since nobody with its id was there.
    have absent : entries.get? request.reqId = none := by
      cases found : entries.get? request.reqId with
      | none => rfl
      | some u =>
        obtain ⟨other, held, same, -⟩ := (known _ u).mp found
        exact absurd same (fresh other held)
    rw [setIfPresent]
    by_cases same : reqId = request.reqId
    · subst same
      simp [absent]
    · simp [same, Ne.symm same]

/-! Vacating a slot. -/

theorem seat_vacate (slots : Table Num) (reqId : ReqId) (k : Nat) :
    seat (vacate slots reqId) k = (seat slots k).filter fun live => live.reqId ≠ reqId := by
  unfold seat vacate
  rw [getElem?_map]
  cases slots[k]? <;> rfl

theorem seat_vacate_iff {slots : Table Num} {reqId : ReqId} {k : Nat} {live : LiveRequest Num} :
    seat (vacate slots reqId) k = some live ↔ seat slots k = some live ∧ live.reqId ≠ reqId := by
  rw [seat_vacate]
  simp

theorem holds_vacate (slots : Table Num) (reqId : ReqId) (request : CachedRequestState Num) :
    Holds (vacate slots reqId) request ↔ Holds slots request ∧ request.reqId ≠ reqId := by
  constructor
  · rintro ⟨i, live, sits, rfl⟩
    obtain ⟨before, different⟩ := seat_vacate_iff.mp sits
    exact ⟨⟨i, live, before, rfl⟩, different⟩
  · rintro ⟨⟨i, live, sits, rfl⟩, different⟩
    exact ⟨i, live, seat_vacate_iff.mpr ⟨sits, different⟩, rfl⟩

theorem reduceOption_vacate (slots : Table Num) (reqId : ReqId) :
    (vacate slots reqId).reduceOption =
      slots.reduceOption.filter fun live => live.reqId ≠ reqId := by
  induction slots with
  | nil => rfl
  | cons slot rest ih =>
    have step : vacate (slot :: rest) reqId =
        slot.filter (fun live => live.reqId ≠ reqId) :: vacate rest reqId := rfl
    rw [step]
    cases slot with
    | none =>
      rw [filter_none, reduceOption_cons_of_none, reduceOption_cons_of_none, ih]
    | some live =>
      by_cases same : live.reqId = reqId
      · simp [filter_some, same, ih]
      · simp [filter_some, same, ih]

variable {batch : InputBatch Num} {slots : Table Num}

theorem same_seat (named : Named batch slots) {i j : Nat} {first second : LiveRequest Num}
    (here : seat slots i = some first) (there : seat slots j = some second)
    (same : first.reqId = second.reqId) : i = j := by
  have atI := (named.index first.reqId i).mpr ⟨first, here, rfl⟩
  have atJ := (named.index first.reqId j).mpr ⟨second, there, same.symm⟩
  exact some.inj (atI.symm.trans atJ)

theorem vacate_absent (named : Named batch slots) {reqId : ReqId}
    (absent : batch.reqIdToIndex.get? reqId = none) : vacate slots reqId = slots := by
  apply ext_getElem?
  intro k
  unfold vacate
  rw [getElem?_map]
  cases slot : slots[k]? with
  | none => rfl
  | some content =>
    cases content with
    | none => rfl
    | some live =>
      have other : live.reqId ≠ reqId := by
        rintro rfl
        have found := (named.index live.reqId k).mpr
          ⟨live, (seat_eq_some slots k live).mpr slot, rfl⟩
        rw [absent] at found
        contradiction
      simp [filter_some, other]

theorem vacate_present (named : Named batch slots) {reqId : ReqId} {i : Nat}
    (present : batch.reqIdToIndex.get? reqId = some i) :
    i < slots.length ∧ vacate slots reqId = slots.set i none := by
  obtain ⟨live, sits, same⟩ := (named.index reqId i).mp present
  have bound := seat_bound slots i live sits
  constructor
  · exact bound
  apply ext_getElem?
  intro k
  unfold vacate
  rw [getElem?_map, getElem?_set]
  by_cases here : i = k
  · subst here
    rw [(seat_eq_some slots i live).mp sits]
    simp [filter_some, same, bound]
  · rw [if_neg here]
    cases slot : slots[k]? with
    | none => rfl
    | some content =>
      cases content with
      | none => rfl
      | some other =>
        have different : other.reqId ≠ reqId := by
          intro again
          exact here (same_seat named sits
            ((seat_eq_some slots k other).mpr slot) (same.trans again.symm))
        simp [filter_some, different]

variable (reqId : ReqId)

theorem dropLora_cases {i : Nat} {batch' : InputBatch Num}
    (dropped : batch.dropLora reqId i = some batch') :
    ∃ ids adapters, batch' = { batch with
        requestLoraMapping := Function.update batch.requestLoraMapping i 0
        loraIdToRequestIds := ids
        loraIdToLoraRequest := adapters } ∧
      (∀ loraId, ids.get? loraId =
        if loraId ≠ 0 ∧ loraId = batch.requestLoraMapping i then
          (batch.loraIdToRequestIds.get? loraId).bind fun known =>
            if known.erase reqId = ∅ then none else some (known.erase reqId)
        else batch.loraIdToRequestIds.get? loraId) ∧
      ∀ loraId, (adapters.get? loraId).isSome =
        if loraId ≠ 0 ∧ loraId = batch.requestLoraMapping i then (ids.get? loraId).isSome &&
          (batch.loraIdToLoraRequest.get? loraId).isSome
        else (batch.loraIdToLoraRequest.get? loraId).isSome := by
  unfold InputBatch.dropLora at dropped
  by_cases bare : batch.requestLoraMapping i = 0
  · simp only [bare, ↓reduceIte, some.injEq] at dropped
    subst dropped
    refine ⟨batch.loraIdToRequestIds, batch.loraIdToLoraRequest, ?_, ?_, ?_⟩
    · rw [← bare, update_eq_self]
    · intro loraId
      rw [if_neg (fun both => both.1 (both.2.trans bare))]
    · intro loraId
      rw [if_neg (fun both => both.1 (both.2.trans bare))]
  · simp only [bare, ↓reduceIte] at dropped
    cases found : batch.loraIdToRequestIds.get? (batch.requestLoraMapping i) with
    | none => simp [found] at dropped
    | some known =>
      simp only [found, bind_eq_bind, bind_some] at dropped
      by_cases last : known.erase reqId = ∅
      · simp only [last, ↓reduceIte, Option.pure_def, some.injEq] at dropped
        subst dropped
        refine ⟨_, _, rfl, ?_, ?_⟩
        · intro loraId
          by_cases here : loraId = batch.requestLoraMapping i
          · subst here
            simp [bare, found, last]
          · simp [here]
        · intro loraId
          by_cases here : loraId = batch.requestLoraMapping i
          · subst here
            simp [bare]
          · simp [here]
      · simp only [last, ↓reduceIte, Option.pure_def, some.injEq] at dropped
        subst dropped
        refine ⟨_, _, rfl, ?_, ?_⟩
        · intro loraId
          by_cases here : loraId = batch.requestLoraMapping i
          · subst here
            simp [bare, found, last]
          · simp [here]
        · intro loraId
          by_cases here : loraId = batch.requestLoraMapping i
          · subst here
            simp [bare]
          · simp [here]

theorem removeRequest_cases (result : Option Nat) (batch' : InputBatch Num)
    (removed : batch.removeRequest reqId = some (result, batch')) :
    (batch.reqIdToIndex.get? reqId = none ∧ batch' = batch) ∨
    ∃ i builder unadapted, batch.reqIdToIndex.get? reqId = some i ∧
      batch.batchUpdateBuilder.removedAppend i = some builder ∧
      InputBatch.dropLora { batch with
        reqIdToIndex := batch.reqIdToIndex.erase reqId
        batchUpdateBuilder := builder
        reqIds := batch.reqIds.set i none
        reqOutputTokenIds := batch.reqOutputTokenIds.set i none
        specTokenIds := batch.specTokenIds.set i [] } reqId i = some unadapted ∧
      batch' = unadapted.dropSampling reqId i := by
  unfold InputBatch.removeRequest at removed
  cases found : batch.reqIdToIndex.get? reqId with
  | none =>
    simp only [found, some.injEq, Prod.mk.injEq] at removed
    exact Or.inl ⟨rfl, removed.2.symm⟩
  | some i =>
    simp only [found] at removed
    obtain ⟨builder, appended, rest⟩ := bind_eq_some_iff.mp removed
    obtain ⟨unadapted, dropped, last⟩ := bind_eq_some_iff.mp rest
    simp only [Option.pure_def, some.injEq, Prod.mk.injEq] at last
    exact Or.inr ⟨i, builder, unadapted, rfl, appended, dropped, last.2.symm⟩

theorem vacate_named (named : Named batch slots) (reqId : ReqId) (i : Nat)
    (present : batch.reqIdToIndex.get? reqId = some i) (batch' : InputBatch Num)
    (reqIds : batch'.reqIds = batch.reqIds.set i none)
    (outputs : batch'.reqOutputTokenIds = batch.reqOutputTokenIds.set i none)
    (spec : batch'.specTokenIds = batch.specTokenIds.set i [])
    (index : batch'.reqIdToIndex = batch.reqIdToIndex.erase reqId) :
    Named batch' (vacate slots reqId) := by
  obtain ⟨bound, shape⟩ := vacate_present named present
  constructor
  · rw [reqIds, named.reqIds, shape, map_set]
    rfl
  · rw [outputs, named.outputs, shape, map_set]
    rfl
  · rw [spec, shape, length_set, length_set]
    exact named.room
  · intro k inside
    rw [spec, length_set] at inside
    rw [spec, shape, seat_set slots i k none bound, getElem?_set, named.spec k inside]
    by_cases here : k = i
    · subst here
      simp [inside]
    · simp [here, Ne.symm here]
  · rw [reduceOption_vacate]
    exact (filter_sublist.map LiveRequest.reqId).nodup named.unique
  · intro other k
    rw [index, get?_erase]
    by_cases same : other = reqId
    · subst same
      simp only [↓reduceIte, reduceCtorEq, false_iff, not_exists, not_and]
      intro live sits again
      exact (seat_vacate_iff.mp sits).2 again
    · rw [if_neg same, named.index other k]
      constructor
      · rintro ⟨live, sits, rfl⟩
        exact ⟨live, seat_vacate_iff.mpr ⟨sits, same⟩, rfl⟩
      · rintro ⟨live, sits, rfl⟩
        exact ⟨live, (seat_vacate_iff.mp sits).1, rfl⟩

theorem IndexMap.erase (entries : Dict Nat Value) (value : CachedRequestState Num → Option Value)
    (i : Nat) (known : IndexMap entries slots value) (slots' : Table Num)
    (left : ∀ k, seat slots' k = if k = i then none else seat slots k) :
    IndexMap (entries.erase i) slots' value := by
  intro k
  rw [get?_erase, known k, left k]
  by_cases here : k = i <;> simp [here]

theorem tokenAt_bound (live : LiveRequest Num) (k : Nat) (token : Token)
    (known : live.tokenAt k = some token) : k < live.numTokens + live.specTokenIds.length := by
  unfold LiveRequest.tokenAt at known
  unfold LiveRequest.numTokens
  by_cases inPrompt : k < live.request.numPromptTokens
  · omega
  · rw [if_neg inPrompt] at known
    have bound := (List.getElem?_eq_some_iff.mp known).1
    rw [length_append] at bound
    omega

theorem vacate_adapted (adapted : Adapted batch slots) (reqId : ReqId) (i : Nat)
    (mapping : ∀ request, Holds slots request → request.reqId = reqId →
      adapterId request = batch.requestLoraMapping i)
    (batch' : InputBatch Num)
    (requests : ∀ loraId, batch'.loraIdToRequestIds.get? loraId =
      if loraId ≠ 0 ∧ loraId = batch.requestLoraMapping i then
        (batch.loraIdToRequestIds.get? loraId).bind fun known =>
          if known.erase reqId = ∅ then none else some (known.erase reqId)
      else batch.loraIdToRequestIds.get? loraId)
    (adapters : ∀ loraId, (batch'.loraIdToLoraRequest.get? loraId).isSome =
      if loraId ≠ 0 ∧ loraId = batch.requestLoraMapping i then
        (batch'.loraIdToRequestIds.get? loraId).isSome &&
          (batch.loraIdToLoraRequest.get? loraId).isSome
      else (batch.loraIdToLoraRequest.get? loraId).isSome) :
    Adapted batch' (vacate slots reqId) := by
  constructor
  · intro loraId other
    have before := adapted.requests loraId other
    by_cases touched : loraId ≠ 0 ∧ loraId = batch.requestLoraMapping i
    · rw [requests, if_pos touched]
      have members : (∃ ids, ((batch.loraIdToRequestIds.get? loraId).bind fun known =>
          if known.erase reqId = ∅ then none else some (known.erase reqId)) = some ids ∧
            other ∈ ids) ↔
          other ≠ reqId ∧ ∃ ids, batch.loraIdToRequestIds.get? loraId = some ids ∧ other ∈ ids := by
        cases batch.loraIdToRequestIds.get? loraId with
        | none => simp
        | some known =>
          simp only [bind_some, some.injEq, exists_eq_left']
          rw [← Finset.mem_erase]
          by_cases last : known.erase reqId = ∅
          · simp [last]
          · simp [last]
      rw [members, before]
      constructor
      · rintro ⟨different, request, held, rfl, uses, used⟩
        exact ⟨request, (holds_vacate slots reqId request).mpr ⟨held, different⟩, rfl, uses, used⟩
      · rintro ⟨request, held, rfl, uses, used⟩
        obtain ⟨old, different⟩ := (holds_vacate slots reqId request).mp held
        exact ⟨different, request, old, rfl, uses, used⟩
    · rw [requests, if_neg touched, before]
      constructor
      · rintro ⟨request, held, rfl, uses, used⟩
        -- The removed request used the adapter that was touched.
        have different : request.reqId ≠ reqId := fun same =>
          touched ⟨used, uses ▸ mapping request held same⟩
        exact ⟨request, (holds_vacate slots reqId request).mpr ⟨held, different⟩, rfl, uses, used⟩
      · rintro ⟨request, held, rfl, uses, used⟩
        exact ⟨request, ((holds_vacate slots reqId request).mp held).1, rfl, uses, used⟩
  · intro loraId
    rw [requests]
    split
    · cases batch.loraIdToRequestIds.get? loraId with
      | none => simp
      | some known =>
        by_cases last : known.erase reqId = ∅
        · simp [last]
        · simp [last]
    · exact adapted.used loraId
  · intro loraId
    have before := adapted.adapters loraId
    rw [adapters]
    by_cases touched : loraId ≠ 0 ∧ loraId = batch.requestLoraMapping i
    · rw [if_pos touched, before, requests, if_pos touched]
      cases batch.loraIdToRequestIds.get? loraId with
      | none => rfl
      | some known => simp
    · rw [if_neg touched, before, requests, if_neg touched]

/-! The builder's list of removed indices names the free slots. -/

variable (builder : BatchUpdateBuilder Num)

section
variable (freed : Freed builder slots)
include freed

theorem ensureRemovedSorted_freed :
    Freed builder.ensureRemovedSorted slots ∧
      builder.ensureRemovedSorted.removedList.Pairwise (· > ·) := by
  unfold BatchUpdateBuilder.ensureRemovedSorted
  by_cases sorted : builder.isRemovedSorted = true
  · rw [if_pos sorted]
    exact ⟨freed, freed.sorted sorted⟩
  · rw [if_neg sorted]
    have order : (BatchUpdateBuilder.sortDescending builder.removedList).Perm builder.removedList :=
      perm_insertionSort _ _
    have descending : (BatchUpdateBuilder.sortDescending builder.removedList).Pairwise (· > ·) := by
      have weak : (BatchUpdateBuilder.sortDescending builder.removedList).Pairwise (· ≥ ·) :=
        pairwise_insertionSort _ _
      have distinct := order.nodup_iff.mpr freed.unique
      exact (weak.and distinct).imp fun both => Nat.lt_of_le_of_ne both.1 (Ne.symm both.2)
    constructor
    · constructor
      · exact order.nodup_iff.mpr freed.unique
      · intro i
        exact order.mem_iff.trans (freed.free i)
      · rw [order.length_eq]
        exact freed.count
      · intro _
        exact descending
    · exact descending

theorem lowestFree_of_sorted (sorted : builder.removedList.Pairwise (· > ·)) :
    builder.removedList.getLast? = lowestFree slots := by
  rcases eq_nil_or_concat builder.removedList with none | ⟨front, last, shape⟩
  · rw [none]
    cases lowest : lowestFree slots with
    | none => rfl
    | some i =>
      have member := (freed.free i).mpr (lowestFree_some slots lowest).1
      simp [none] at member
  · have shape' : builder.removedList = front ++ [last] := by rw [shape, concat_eq_append]
    rw [shape', getLast?_concat]
    symm
    apply lowestFree_eq
    · exact (freed.free last).mp (by simp [shape'])
    · intro i earlier free
      have member := (freed.free i).mpr free
      rw [shape', mem_append, mem_singleton] at member
      rw [shape', pairwise_append] at sorted
      rcases member with inFront | rfl
      · have later := sorted.2.2 i inFront last (mem_singleton_self last)
        omega
      · omega

theorem hasRemoved_iff : builder.hasRemoved = (lowestFree slots).isSome := by
  unfold BatchUpdateBuilder.hasRemoved
  cases lowest : lowestFree slots with
  | some i =>
    have member := (freed.free i).mpr (lowestFree_some slots lowest).1
    cases shape : builder.removedList with
    | nil => simp [shape] at member
    | cons head rest => rfl
  | none =>
    cases shape : builder.removedList with
    | nil => rfl
    | cons head rest =>
      have free := (freed.free head).mp (by simp [shape])
      exact absurd (mem_of_getElem? free) (lowestFree_none slots lowest)

theorem dropLast_freed (sorted : builder.removedList.Pairwise (· > ·))
    (i : Nat) (lowest : lowestFree slots = some i) (newcomer : LiveRequest Num) :
    Freed { builder with removedList := builder.removedList.dropLast }
      (slots.set i (some newcomer)) := by
  have last := (lowestFree_of_sorted builder freed sorted).trans lowest
  obtain ⟨front, shape⟩ := getLast?_eq_some_iff.mp last
  have distinct := freed.unique
  rw [shape, nodup_append] at distinct
  have bound : i < slots.length := (List.getElem?_eq_some_iff.mp (lowestFree_some slots lowest).1).1
  constructor
  · simpa [shape] using distinct.1
  · intro k
    have member := freed.free k
    rw [shape] at member
    simp only [shape, dropLast_concat, getElem?_set]
    by_cases here : i = k
    · subst here
      simp only [↓reduceIte, bound, some.injEq, reduceCtorEq, iff_false]
      intro again
      exact distinct.2.2 i again i (mem_singleton_self i) rfl
    · rw [if_neg here, ← member]
      simp [Ne.symm here]
  · have count := freed.count
    have seated := occupied_place slots newcomer
    rw [place, lowest] at seated
    show builder.removedList.dropLast.length + occupied (slots.set i (some newcomer)) =
      (slots.set i (some newcomer)).length
    rw [seated, length_set, shape, dropLast_concat]
    rw [shape, length_append, length_singleton] at count
    omega
  · intro _
    exact sorted.sublist (dropLast_sublist _)

theorem popRemoved_freed (newcomer : LiveRequest Num) :
    builder.popRemoved.1 = lowestFree slots ∧ Freed builder.popRemoved.2 (place slots newcomer) ∧
      builder.popRemoved.2.added = builder.added ∧
      builder.popRemoved.2.moved = builder.moved := by
  obtain ⟨sortedFreed, sorted⟩ := ensureRemovedSorted_freed builder freed
  have fields : builder.ensureRemovedSorted.added = builder.added ∧
      builder.ensureRemovedSorted.moved = builder.moved := by
    unfold BatchUpdateBuilder.ensureRemovedSorted
    split <;> exact ⟨rfl, rfl⟩
  unfold BatchUpdateBuilder.popRemoved
  rw [hasRemoved_iff builder freed]
  unfold place
  cases lowest : lowestFree slots with
  | some i =>
    refine ⟨?_, ?_, fields⟩
    · exact (lowestFree_of_sorted _ sortedFreed sorted).trans lowest
    · exact dropLast_freed _ sortedFreed sorted i lowest newcomer
  | none =>
    refine ⟨rfl, ?_, rfl, rfl⟩
    have full := lowestFree_none slots lowest
    constructor
    · exact freed.unique
    · intro k
      show k ∈ builder.removedList ↔ (slots ++ [some newcomer])[k]? = some none
      rw [freed.free k]
      constructor
      · intro free
        exact absurd (mem_of_getElem? free) full
      · intro free
        have member := mem_of_getElem? free
        rw [mem_append] at member
        rcases member with old | new
        · exact absurd old full
        · contradiction
    · have count := freed.count
      have seated := occupied_place slots newcomer
      rw [place, lowest] at seated
      show builder.removedList.length + occupied (slots ++ [some newcomer]) = _
      rw [seated, length_append, length_singleton]
      omega
    · exact freed.sorted

end

theorem removedAppend_freed (builder' : BatchUpdateBuilder Num) (freed : Freed builder slots)
    (i : Nat) (live : LiveRequest Num) (sits : seat slots i = some live)
    (appended : builder.removedAppend i = some builder') :
    Freed builder' (slots.set i none) ∧ builder'.added = builder.added ∧
      builder'.moved = builder.moved ∧ builder.isRemovedSorted = false ∧
      builder'.isRemovedSorted = false := by
  unfold BatchUpdateBuilder.removedAppend at appended
  cases flag : builder.isRemovedSorted with
  | true => simp [flag] at appended
  | false =>
    simp only [flag, Bool.false_eq_true, ↓reduceIte, some.injEq] at appended
    subst appended
    have bound := seat_bound slots i live sits
    have taken : i ∉ builder.removedList := by
      intro member
      have free := (freed.free i).mp member
      rw [(seat_eq_some slots i live).mp sits] at free
      exact absurd (some.inj free) (by simp)
    refine ⟨?_, rfl, rfl, rfl, rfl⟩
    constructor
    · apply nodup_append.mpr
      refine ⟨freed.unique, nodup_singleton i, ?_⟩
      intro a inside b last same
      rw [mem_singleton] at last
      exact taken (last ▸ same ▸ inside)
    · intro k
      rw [mem_append, freed.free k]
      by_cases here : i = k
      · subst here
        simp [bound]
      · simp [here, Ne.symm here]
    · have count := freed.count
      have seated := occupied_set_none slots i live sits
      rw [length_append, length_singleton, length_set]
      omega
    · intro impossible
      simp at impossible

/-! What the parts of an addition write. -/

/-- The mask in host memory once the request has been written at its index. -/
def cpuMaskAfter (batch : InputBatch Num) (request : CachedRequestState Num) (index : Nat) :
    Option (Nat → Nat → Bool) :=
  match orNone request.samplingParams.allowedTokenIds with
  | none => batch.allowedTokenIdsMaskCpu
  | some allowed => some (Function.update (batch.allowedTokenIdsMaskCpu.getD fun _ _ => false) index
      (InputBatch.allowedRow allowed))

theorem writeAllowedTokens_cases {request : CachedRequestState Num} {index : Nat}
    {batch' : InputBatch Num} (written : batch.writeAllowedTokens request index = some batch') :
    ∃ device, batch' = { batch with
      hasAllowedTokenIds := InputBatch.insertIf
        ((orNone request.samplingParams.allowedTokenIds).isSome = true)
        batch.hasAllowedTokenIds request.reqId
      allowedTokenIdsMask := device
      allowedTokenIdsMaskCpu := cpuMaskAfter batch request index } := by
  unfold InputBatch.writeAllowedTokens at written
  unfold cpuMaskAfter
  cases asked : orNone request.samplingParams.allowedTokenIds with
  | none =>
    simp only [asked, some.injEq] at written
    subst written
    exact ⟨batch.allowedTokenIdsMask, rfl⟩
  | some allowed =>
    simp only [asked] at written
    split at written
    · simp only [some.injEq] at written
      subst written
      exact ⟨_, rfl⟩
    · contradiction

theorem writeLora_cases (batch : InputBatch Num) {request : CachedRequestState Num} {index : Nat} :
    ∃ ids adapters, batch.writeLora request index = { batch with
        requestLoraMapping := Function.update batch.requestLoraMapping index (adapterId request)
        loraIdToRequestIds := ids
        loraIdToLoraRequest := adapters } ∧
      (∀ loraId, ids.get? loraId =
        if loraId ≠ 0 ∧ loraId = adapterId request then
          some (insert request.reqId ((batch.loraIdToRequestIds.get? loraId).getD ∅))
        else batch.loraIdToRequestIds.get? loraId) ∧
      ∀ loraId, (adapters.get? loraId).isSome = if loraId ≠ 0 ∧ loraId = adapterId request then true
        else (batch.loraIdToLoraRequest.get? loraId).isSome := by
  unfold InputBatch.writeLora adapterId
  cases asked : request.loraRequest with
  | none =>
    refine ⟨batch.loraIdToRequestIds, batch.loraIdToLoraRequest, rfl, ?_, ?_⟩
    · simp
    · simp
  | some lora =>
    have positive := lora.positive
    refine ⟨_, _, rfl, ?_, ?_⟩
    · intro loraId
      by_cases here : loraId = lora.loraIntId
      · subst here
        simp [Nat.ne_of_gt positive]
      · simp [here]
    · intro loraId
      by_cases here : loraId = lora.loraIntId
      · subst here
        simp [Nat.ne_of_gt positive]
      · simp [here]

theorem numReqs_eq (named : Named batch slots) : batch.numReqs = occupied slots := by
  have keys : batch.reqIdToIndex.keys.Perm (slots.reduceOption.map LiveRequest.reqId) := by
    apply (perm_ext_iff_of_nodup batch.reqIdToIndex.unique named.unique).mpr
    intro reqId
    show reqId ∈ batch.reqIdToIndex.keys ↔ _
    rw [mem_keys_iff, List.mem_map]
    constructor
    · rintro ⟨i, found⟩
      obtain ⟨live, sits, rfl⟩ := (named.index reqId i).mp found
      exact ⟨live, (mem_reduceOption_iff slots live).mpr ⟨i, sits⟩, rfl⟩
    · rintro ⟨live, member, rfl⟩
      obtain ⟨i, sits⟩ := (mem_reduceOption_iff slots live).mp member
      exact ⟨i, (named.index live.reqId i).mpr ⟨live, sits, rfl⟩⟩
  unfold InputBatch.numReqs occupied
  rw [keys.length_eq, length_map]

/-- The newcomer gets the lowest free slot, or the one behind the last. -/
theorem registerAddRequest_cases (named : Named batch slots)
    (freed : Freed batch.batchUpdateBuilder slots) {request : CachedRequestState Num} {index : Nat}
    {registered : InputBatch Num}
    (registration : batch.registerAddRequest request = some (index, registered))
    (newcomer : LiveRequest Num) :
    index = (lowestFree slots).getD slots.length ∧
      ∃ builder, registered = { batch with batchUpdateBuilder := builder } ∧
        Freed builder (place slots newcomer) ∧
        builder.added = batch.batchUpdateBuilder.added ++
          [⟨index, request.samplingParams, request.promptTokenIds, request.outputTokenIds⟩] ∧
        builder.moved = batch.batchUpdateBuilder.moved := by
  obtain ⟨popped, left, additions, moves⟩ :=
    popRemoved_freed batch.batchUpdateBuilder freed newcomer
  unfold InputBatch.registerAddRequest at registration
  simp only at registration
  split at registration
  · obtain ⟨rfl, rfl⟩ := registration
    constructor
    · rw [popped]
      cases lowest : lowestFree slots with
      | some i => rfl
      | none =>
        rw [getD_none, getD_none, numReqs_eq named, free_of_lowestFree_none slots lowest]
    · exact ⟨_, rfl, ⟨left.unique, left.free, left.count, left.sorted⟩, by rw [additions], moves⟩
  · contradiction

/-- The slot a newcomer takes. -/
def newSlot (slots : Table Num) : Nat := (lowestFree slots).getD slots.length

theorem seat_newcomer (slots : Table Num) (newcomer : LiveRequest Num) (k : Nat) :
    seat (place slots newcomer) k = if k = newSlot slots then some newcomer else seat slots k :=
  seat_place slots newcomer k

theorem newSlot_free (slots : Table Num) : seat slots (newSlot slots) = none := by
  unfold newSlot
  cases lowest : lowestFree slots with
  | none =>
    unfold seat
    rw [getD_none, getElem?_eq_none (Nat.le_refl _)]
    rfl
  | some i =>
    unfold seat
    rw [getD_some, (lowestFree_some slots lowest).1]
    rfl

theorem holds_place (slots : Table Num) (newcomer : LiveRequest Num)
    (request : CachedRequestState Num) :
    Holds (place slots newcomer) request ↔ request = newcomer.request ∨ Holds slots request := by
  have free := newSlot_free slots
  constructor
  · rintro ⟨i, live, sits, rfl⟩
    rw [seat_newcomer] at sits
    split at sits
    · exact Or.inl (congrArg LiveRequest.request (some.inj sits).symm)
    · exact Or.inr ⟨i, live, sits, rfl⟩
  · rintro (rfl | ⟨i, live, sits, rfl⟩)
    · exact ⟨newSlot slots, newcomer, by rw [seat_newcomer, if_pos rfl], rfl⟩
    · refine ⟨i, live, ?_, rfl⟩
      rw [seat_newcomer, if_neg ?_]
      · exact sits
      · intro here
        rw [here] at sits
        exact absurd (sits.symm.trans free) (by simp)

theorem place_named (named : Named batch slots) (newcomer : LiveRequest Num)
    (plain : newcomer.specTokenIds = [])
    (fresh : ∀ other, Holds slots other → other.reqId ≠ newcomer.request.reqId) :
    Named (batch.placeId newcomer.request (newSlot slots)) (place slots newcomer) := by
  have length : batch.reqIds.length = slots.length := by rw [named.reqIds, length_map]
  have unique : ((place slots newcomer).reduceOption.map LiveRequest.reqId).Nodup := by
    apply ((place_perm slots newcomer).map LiveRequest.reqId).nodup_iff.mpr
    apply nodup_cons.mpr
    refine ⟨?_, named.unique⟩
    intro member
    obtain ⟨other, present, same⟩ := List.mem_map.mp member
    obtain ⟨i, sits⟩ := (mem_reduceOption_iff slots other).mp present
    exact fresh other.request ⟨i, other, sits, rfl⟩ same
  have index : ∀ reqId k,
      (batch.reqIdToIndex.set newcomer.request.reqId (newSlot slots)).get? reqId = some k ↔
        ∃ live, seat (place slots newcomer) k = some live ∧ live.reqId = reqId := by
    intro reqId k
    rw [get?_set, seat_newcomer]
    by_cases same : reqId = newcomer.request.reqId
    · subst same
      by_cases here : k = newSlot slots
      · subst here
        simp [LiveRequest.reqId]
      · simp only [↓reduceIte, some.injEq, here, Ne.symm here, false_iff, not_exists, not_and]
        intro live sits
        exact fresh live.request ⟨k, live, sits, rfl⟩
    · rw [if_neg same, named.index reqId k]
      by_cases here : k = newSlot slots
      · subst here
        simp [newSlot_free, LiveRequest.reqId, Ne.symm same]
      · simp [here]
  cases lowest : lowestFree slots with
  | some i =>
    have at_i : newSlot slots = i := by simp [newSlot, lowest]
    have bound : i < slots.length :=
      (List.getElem?_eq_some_iff.mp (lowestFree_some slots lowest).1).1
    have inside : newSlot slots ≠ batch.reqIds.length := by omega
    have shape : place slots newcomer = slots.set i (some newcomer) := by simp [place, lowest]
    unfold InputBatch.placeId
    rw [if_neg inside]
    constructor
    · rw [named.reqIds, shape, at_i, map_set]
      rfl
    · rw [named.outputs, shape, at_i, map_set]
      rfl
    · rw [shape, length_set, length_set]
      exact named.room
    · intro k within
      have within' : k < batch.specTokenIds.length := by simpa using within
      rw [shape, at_i, seat_set slots i k _ bound, getElem?_set, named.spec k within']
      by_cases here : k = i
      · subst here
        simp [within', plain]
      · simp [here, Ne.symm here]
    · exact unique
    · exact index
  | none =>
    have at_end : newSlot slots = slots.length := by simp [newSlot, lowest]
    have atEnd : newSlot slots = batch.reqIds.length := by omega
    have shape : place slots newcomer = slots ++ [some newcomer] := by simp [place, lowest]
    have room := named.room
    unfold InputBatch.placeId
    rw [if_pos atEnd]
    constructor
    · rw [named.reqIds, shape, map_append]
      rfl
    · rw [named.outputs, shape, map_append]
      rfl
    · rw [shape]
      simpa using room
    · intro k within
      have within' : k < batch.specTokenIds.length + 1 := by simpa using within
      rw [seat_newcomer]
      by_cases old : k < batch.specTokenIds.length
      · rw [getElem?_append_left old, named.spec k old]
        by_cases here : k = newSlot slots
        · subst here
          simp [newSlot_free, plain]
        · simp [here]
      · -- The list is as long as the table, so the new entry is the newcomer's.
        have last : k = batch.specTokenIds.length := by omega
        have beyond : seat slots k = none := by
          unfold seat
          rw [getElem?_eq_none (by omega)]
          rfl
        subst last
        by_cases here : batch.specTokenIds.length = newSlot slots
        · simp [here, plain]
        · simp [here, beyond]
    · exact unique
    · exact index

theorem IndexMap.place (entries : Dict Nat Value) (value : CachedRequestState Num → Option Value)
    (newcomer : LiveRequest Num) (known : IndexMap entries slots value) :
    IndexMap (setIfPresent entries (newSlot slots) (value newcomer.request))
      (place slots newcomer) value := by
  intro k
  have before := known (newSlot slots)
  rw [newSlot_free] at before
  rw [seat_newcomer]
  cases asked : value newcomer.request with
  | none =>
    by_cases here : k = newSlot slots
    · subst here
      simpa [setIfPresent, asked] using before
    · simpa [setIfPresent, here] using known k
  | some v =>
    simp only [setIfPresent, get?_set]
    by_cases here : k = newSlot slots
    · simp [here, asked]
    · simpa [here] using known k

theorem place_adapted (adapted : Adapted batch slots) (newcomer : LiveRequest Num)
    (batch' : InputBatch Num)
    (requests : ∀ loraId, batch'.loraIdToRequestIds.get? loraId =
      if loraId ≠ 0 ∧ loraId = adapterId newcomer.request then
        some (insert newcomer.request.reqId ((batch.loraIdToRequestIds.get? loraId).getD ∅))
      else batch.loraIdToRequestIds.get? loraId)
    (adapters : ∀ loraId, (batch'.loraIdToLoraRequest.get? loraId).isSome =
      if loraId ≠ 0 ∧ loraId = adapterId newcomer.request then true
      else (batch.loraIdToLoraRequest.get? loraId).isSome) :
    Adapted batch' (place slots newcomer) := by
  have came := holds_place slots newcomer
  constructor
  · intro loraId reqId
    have members : (∃ request, Holds (place slots newcomer) request ∧ request.reqId = reqId ∧
        adapterId request = loraId ∧ loraId ≠ 0) ↔
        (newcomer.request.reqId = reqId ∧ adapterId newcomer.request = loraId ∧ loraId ≠ 0) ∨
        ∃ ids, batch.loraIdToRequestIds.get? loraId = some ids ∧ reqId ∈ ids := by
      rw [adapted.requests loraId reqId]
      constructor
      · rintro ⟨request, held, same, uses, used⟩
        rcases (came request).mp held with rfl | before
        · exact Or.inl ⟨same, uses, used⟩
        · exact Or.inr ⟨request, before, same, uses, used⟩
      · rintro (⟨same, uses, used⟩ | ⟨request, held, same, uses, used⟩)
        · exact ⟨newcomer.request, (came _).mpr (Or.inl rfl), same, uses, used⟩
        · exact ⟨request, (came request).mpr (Or.inr held), same, uses, used⟩
    rw [members, requests]
    by_cases touched : loraId ≠ 0 ∧ loraId = adapterId newcomer.request
    · rw [if_pos touched]
      simp only [some.injEq, exists_eq_left', Finset.mem_insert, touched.2.symm,
        ne_eq, touched.1, not_false_eq_true, and_true]
      cases batch.loraIdToRequestIds.get? loraId with
      | none => simp [eq_comm]
      | some ids => simp [eq_comm]
    · rw [if_neg touched]
      constructor
      · exact Or.inr
      · rintro (⟨-, uses, used⟩ | old)
        · exact absurd ⟨used, uses.symm⟩ touched
        · exact old
  · intro loraId
    rw [requests]
    split
    · intro bare
      exact Finset.insert_ne_empty _ _ (some.inj bare)
    · exact adapted.used loraId
  · intro loraId
    rw [adapters, requests]
    split
    · rfl
    · exact adapted.adapters loraId

theorem placeId_shape (batch : InputBatch Num) (request : CachedRequestState Num) (index : Nat) :
    ∃ reqIds outputs specTokenIds, batch.placeId request index = { batch with
      reqIds
      reqOutputTokenIds := outputs
      specTokenIds
      reqIdToIndex := batch.reqIdToIndex.set request.reqId index } := by
  unfold InputBatch.placeId
  split
  · exact ⟨_, _, _, rfl⟩
  · exact ⟨_, _, _, rfl⟩

theorem writeTokens_tokens (batch : InputBatch Num) {request : CachedRequestState Num}
    {index : Nat} {heap : Heap} (k : Nat) {token : Token}
    (asked : LiveRequest.tokenAt ⟨request, heap request.outputTokenIds, []⟩ k = some token) :
    (batch.writeTokens request index heap).tokenIdsCpu index k = token := by
  unfold LiveRequest.tokenAt at asked
  simp only [append_nil] at asked
  simp only [InputBatch.writeTokens, update_self, writeAt]
  by_cases inPrompt : k < request.numPromptTokens
  · rw [if_pos inPrompt] at asked
    rw [if_neg (by omega)]
    cases given : request.promptTokenIds with
    | none => simp [given] at asked
    | some tokens =>
      simp only [given, bind_some] at asked
      simp [asked]
  · rw [if_neg inPrompt] at asked
    rw [if_pos (by omega), asked]
    rfl

theorem writeTokens_isToken (batch : InputBatch Num) {request : CachedRequestState Num}
    {index : Nat} {heap : Heap} (k : Nat)
    (inside : k < LiveRequest.numTokens ⟨request, heap request.outputTokenIds, []⟩) :
    (batch.writeTokens request index heap).isTokenIds index k =
      LiveRequest.isTokenAt ⟨request, heap request.outputTokenIds, []⟩ k := by
  unfold LiveRequest.isTokenAt
  simp only [InputBatch.writeTokens, update_self, fillRange]
  by_cases inPrompt : k < request.numPromptTokens
  · rw [if_neg (by omega), if_pos ⟨Nat.zero_le k, inPrompt⟩, if_pos inPrompt]
  · rw [if_pos ⟨by omega, inside⟩, if_neg inPrompt]

theorem adapted_moved (before : Adapted batch slots) {slots' : Table Num}
    (same : ∀ request, Holds slots' request ↔ Holds slots request) {batch' : InputBatch Num}
    (requests : batch'.loraIdToRequestIds = batch.loraIdToRequestIds)
    (adapters : batch'.loraIdToLoraRequest = batch.loraIdToLoraRequest) :
    Adapted batch' slots' := by
  constructor
  · rw [requests]
    intro loraId reqId
    rw [before.requests loraId reqId]
    exact exists_congr fun request => and_congr_left' (same request).symm
  · rw [requests]
    exact before.used
  · rw [requests, adapters]
    exact before.adapters

theorem redraft_request (specTokenIds : List Token) (live : LiveRequest Num) :
    (live.redraft reqId specTokenIds).request = live.request := by
  unfold LiveRequest.redraft
  split <;> rfl

theorem seat_map (slots : Table Num) (change : LiveRequest Num → LiveRequest Num) (k : Nat) :
    seat (slots.map (Option.map change)) k = (seat slots k).map change := by
  unfold seat
  rw [getElem?_map]
  cases slots[k]? with
  | none => rfl
  | some slot => rfl

theorem holds_map (slots : Table Num) {change : LiveRequest Num → LiveRequest Num}
    (same : ∀ live, (change live).request = live.request) (request : CachedRequestState Num) :
    Holds (slots.map (Option.map change)) request ↔ Holds slots request := by
  constructor
  · rintro ⟨i, live, sits, rfl⟩
    rw [seat_map, map_eq_some_iff] at sits
    obtain ⟨before, seated, rfl⟩ := sits
    exact ⟨i, before, seated, (same before).symm⟩
  · rintro ⟨i, live, sits, rfl⟩
    exact ⟨i, change live, by rw [seat_map, sits, map_some], same live⟩

theorem redraft_named (named : Named batch slots) {reqId : ReqId} {specTokenIds : List Token}
    (i : Nat) (present : batch.reqIdToIndex.get? reqId = some i) (batch' : InputBatch Num)
    (reqIds : batch'.reqIds = batch.reqIds)
    (outputs : batch'.reqOutputTokenIds = batch.reqOutputTokenIds)
    (spec : batch'.specTokenIds = batch.specTokenIds.set i specTokenIds)
    (index : batch'.reqIdToIndex = batch.reqIdToIndex) :
    Named batch' (slots.map (Option.map (LiveRequest.redraft reqId specTokenIds))) := by
  have same (live : LiveRequest Num) : (live.redraft reqId specTokenIds).reqId = live.reqId :=
    congrArg CachedRequestState.reqId (redraft_request reqId specTokenIds live)
  obtain ⟨leaver, sits, isThere⟩ := (named.index reqId i).mp present
  constructor
  · rw [reqIds, named.reqIds, List.map_map]
    apply map_congr_left
    rintro (_ | live) _
    · rfl
    · exact congrArg some (same live).symm
  · rw [outputs, named.outputs, List.map_map]
    apply map_congr_left
    rintro (_ | live) _
    · rfl
    · exact congrArg some (congrArg CachedRequestState.outputTokenIds
        (redraft_request reqId specTokenIds live).symm)
  · rw [spec, length_map, length_set]
    exact named.room
  · intro k inside
    rw [spec, length_set] at inside
    rw [spec, getElem?_set, seat_map, named.spec k inside]
    by_cases here : i = k
    · subst here
      simp [inside, sits, LiveRequest.redraft, isThere]
    · rw [if_neg here]
      cases seated : seat slots k with
      | none => rfl
      | some live =>
        have other : live.reqId ≠ reqId := fun again =>
          here (same_seat named sits seated (isThere.trans again.symm))
        simp [LiveRequest.redraft, other]
  · rw [reduceOption_map, List.map_map]
    have ids : LiveRequest.reqId ∘ LiveRequest.redraft reqId specTokenIds =
        (LiveRequest.reqId : LiveRequest Num → ReqId) := funext same
    rw [ids]
    exact named.unique
  · intro other k
    rw [index, named.index other k]
    constructor
    · rintro ⟨live, seated, rfl⟩
      exact ⟨live.redraft reqId specTokenIds, by rw [seat_map, seated, map_some], same live⟩
    · rintro ⟨live, seated, rfl⟩
      rw [seat_map, map_eq_some_iff] at seated
      obtain ⟨before, sat, rfl⟩ := seated
      exact ⟨before, sat, (same before).symm⟩

theorem IndexMap.map (entries : Dict Nat Value) (value : CachedRequestState Num → Option Value)
    (known : IndexMap entries slots value) (change : LiveRequest Num → LiveRequest Num)
    (same : ∀ live, (change live).request = live.request) :
    IndexMap entries (slots.map (Option.map change)) value := by
  intro k
  rw [known k, seat_map]
  cases seat slots k with
  | none => rfl
  | some live => simp [same]

theorem redraft_tokens {live : LiveRequest Num} (row : Nat → Token) {specTokenIds : List Token}
    (before : ∀ k token, live.tokenAt k = some token → row k = token) (k : Nat) {token : Token}
    (asked : LiveRequest.tokenAt { live with specTokenIds } k = some token) :
    writeAt row live.numTokens specTokenIds k = token := by
  unfold LiveRequest.tokenAt at asked before
  unfold writeAt
  unfold LiveRequest.numTokens
  by_cases inPrompt : k < live.request.numPromptTokens
  · rw [if_pos inPrompt] at asked
    rw [if_neg (by omega)]
    exact before k token (by rw [if_pos inPrompt, asked])
  · rw [if_neg inPrompt, getElem?_append] at asked
    by_cases generated : k - live.request.numPromptTokens < live.outputs.length
    · rw [if_pos generated] at asked
      rw [if_neg (by omega)]
      exact before k token (by rw [if_neg inPrompt, getElem?_append_left generated, asked])
    · rw [if_neg generated] at asked
      rw [if_pos (by omega), ← Nat.sub_sub, asked]
      rfl

section Tracking
variable [Zero Num] [One Num] [LT Num]

theorem removeRequest_tracks (tracks : Tracks batch slots) {reqId : ReqId}
    {result : Option Nat} {batch' : InputBatch Num}
    (removed : batch.removeRequest reqId = some (result, batch')) :
    Tracks batch' (vacate slots reqId) := by
  rcases removeRequest_cases reqId result batch' removed with
    ⟨absent, rfl⟩ | ⟨i, builder, unadapted, present, -, dropped, rfl⟩
  · rw [vacate_absent tracks.named absent]
    exact tracks
  obtain ⟨ids, adapters, rfl, requests, known⟩ := dropLora_cases reqId dropped
  obtain ⟨bound, shape⟩ := vacate_present tracks.named present
  have seats (k : Nat) : seat (vacate slots reqId) k = if k = i then none else seat slots k := by
    rw [shape]
    exact seat_set slots i k none bound
  obtain ⟨leaver, sits, named⟩ := (tracks.named.index reqId i).mp present
  have left := holds_vacate slots reqId
  constructor
  · exact vacate_named tracks.named reqId i present _ rfl rfl rfl rfl
  · intro k live seated
    have elsewhere : k ≠ i := by
      rintro rfl
      simp [seats] at seated
    rw [seats, if_neg elsewhere] at seated
    have row := tracks.rows k live seated
    have adapter : update batch.requestLoraMapping i 0 k = adapterId live.request := by
      rw [update_of_ne elsewhere]
      exact row.adapter
    exact { row with adapter }
  · exact IndexMap.erase batch.generators _ i tracks.generators _ seats
  · exact IndexMap.erase batch.badWordsTokenIds _ i tracks.badWords _ seats
  · have before := tracks.registered
    constructor
    · exact IdSet.erase _ _ _ _ reqId before.greedy left
    · exact IdSet.erase _ _ _ _ reqId before.random left
    · exact IdSet.erase _ _ _ _ reqId before.topP left
    · exact IdSet.erase _ _ _ _ reqId before.topK left
    · exact IdSet.erase _ _ _ _ reqId before.frequency left
    · exact IdSet.erase _ _ _ _ reqId before.presence left
    · exact IdSet.erase _ _ _ _ reqId before.repetition left
    · exact IdSet.erase _ _ _ _ reqId before.allowed left
    · exact IdMap.erase _ _ _ _ reqId before.logprobs left
    · intro other member
      obtain ⟨different, old⟩ := (mem_keys_erase _ _ _).mp member
      obtain ⟨request, held, rfl⟩ := before.inProgress other old
      exact ⟨request, (left request).mpr ⟨held, different⟩, rfl⟩
  · apply vacate_adapted tracks.adapted reqId i _ _ requests known
    rintro request ⟨j, live, seated, rfl⟩ same
    have place := same_seat tracks.named seated sits (same.trans named.symm)
    subst place
    exact (tracks.rows j live seated).adapter.symm

/-! Rows that are copied, moved or left alone. -/

/-- Row `target` of the second batch is row `source` of the first, up to `extent` tokens. -/
structure CopiedRow (batch : InputBatch Num) (source : Nat) (batch' : InputBatch Num)
    (target extent : Nat) : Prop where
  config : batch'.config = batch.config
  tokens : ∀ k < extent, batch'.tokenIdsCpu target k = batch.tokenIdsCpu source k
  isToken : ∀ k < extent, batch'.isTokenIds target k = batch.isTokenIds source k
  numTokens : batch'.numTokensNoSpec target = batch.numTokensNoSpec source
  numPrompt : batch'.numPromptTokens target = batch.numPromptTokens source
  numComputed : batch'.numComputedTokensCpu target = batch.numComputedTokensCpu source
  blocks : ∀ blockIds, BlockRows batch.blockTable source blockIds →
    BlockRows batch'.blockTable target blockIds
  temperature : batch'.temperatureCpu target = batch.temperatureCpu source
  topP : batch'.topPCpu target = batch.topPCpu source
  topK : batch'.topKCpu target = batch.topKCpu source
  frequency : batch'.frequencyPenaltiesCpu target = batch.frequencyPenaltiesCpu source
  presence : batch'.presencePenaltiesCpu target = batch.presencePenaltiesCpu source
  repetition : batch'.repetitionPenaltiesCpu target = batch.repetitionPenaltiesCpu source
  accepted : batch'.numAcceptedTokensCpu target = batch.numAcceptedTokensCpu source
  adapter : batch'.requestLoraMapping target = batch.requestLoraMapping source

omit [One Num] [LT Num] in
theorem Row.copied (batch batch' : InputBatch Num) (source target extent : Nat)
    (live : LiveRequest Num) (copy : CopiedRow batch source batch' target extent)
    (covers : live.numTokens + live.specTokenIds.length ≤ extent) (row : Row batch source live) :
    Row batch' target live := by
  constructor
  · intro k token known
    rw [copy.tokens k (Nat.lt_of_lt_of_le (tokenAt_bound live k token known) covers)]
    exact row.tokens k token known
  · intro k inside
    rw [copy.isToken k (by omega)]
    exact row.isToken k inside
  · exact copy.numTokens.trans row.numTokens
  · exact copy.numPrompt.trans row.numPrompt
  · exact copy.numComputed.trans row.numComputed
  · exact copy.blocks _ row.blocks
  · rw [copy.temperature, copy.config]
    exact row.temperature
  · rw [copy.topP, copy.config]
    exact row.topP
  · rw [copy.topK, copy.config]
    exact row.topK
  · rw [copy.frequency, copy.config]
    exact row.frequency
  · rw [copy.presence, copy.config]
    exact row.presence
  · rw [copy.repetition, copy.config]
    exact row.repetition
  · exact copy.accepted.trans row.accepted
  · exact copy.adapter.trans row.adapter

/-! Adding a request. -/

theorem blockRow_add (table table' : BlockTable) (blockIds : List Nat) (i : Nat)
    (added : table.addRow blockIds i = some table') :
    BlockRow table' i blockIds ∧ ∀ k ≠ i, ∀ ids, BlockRow table k ids → BlockRow table' k ids := by
  unfold BlockTable.addRow BlockTable.appendRow at added
  cases blockIds with
  | nil =>
    simp only [isEmpty_nil, ↓reduceIte, some.injEq] at added
    subst added
    have bare : BlockTable.mapToKernelBlocks [] table.blocksPerKvBlock = [] := by
      unfold BlockTable.mapToKernelBlocks
      split <;> rfl
    constructor
    · constructor
      · simp [bare]
      · intro k block found
        simp [bare] at found
    · intro k elsewhere ids row
      constructor
      · simp only [update_of_ne elsewhere]
        exact row.count
      · exact row.blocks
  | cons first rest =>
    simp only [isEmpty_cons, Bool.false_eq_true, ↓reduceIte, update_self, Nat.zero_add] at added
    split at added
    · simp only [some.injEq] at added
      subst added
      constructor
      · constructor
        · simp
        · intro k block found
          simp only [update_self, writeAt, Nat.zero_le, ↓reduceIte, Nat.sub_zero]
          exact getD_eq_iff.mpr (Or.inl found)
      · intro k elsewhere ids row
        constructor
        · simp only [update_of_ne elsewhere]
          exact row.count
        · intro j block found
          simp only [update_of_ne elsewhere]
          exact row.blocks j block found
    · contradiction

theorem blockRows_add (tables tables' : List BlockTable) (blockIds : List (List Nat)) (i : Nat)
    (added : addRow tables blockIds i = some tables') :
    BlockRows tables' i blockIds ∧
      ∀ k ≠ i, ∀ ids, BlockRows tables k ids → BlockRows tables' k ids := by
  induction tables generalizing tables' blockIds with
  | nil =>
    simp only [addRow, some.injEq] at added
    subst added
    exact ⟨trivial, fun k _ ids _ => trivial⟩
  | cons table tables ih =>
    cases blockIds with
    | nil => simp [addRow] at added
    | cons first rest =>
      obtain ⟨table', one, more⟩ := bind_eq_some_iff.mp added
      obtain ⟨others, many, last⟩ := bind_eq_some_iff.mp more
      simp only [Option.pure_def, some.injEq] at last
      subst last
      have here := blockRow_add table table' first i one
      have there := ih others rest many
      constructor
      · exact ⟨here.1, there.1⟩
      · intro k elsewhere ids rows
        cases ids with
        | nil => exact rows
        | cons head tail =>
          exact ⟨here.2 k elsewhere head rows.1, there.2 k elsewhere tail rows.2⟩

theorem addRequest_cases [DecidableLT Num] [DecidableEq Num] {request : CachedRequestState Num}
    {heap : Heap} {index : Nat} {batch' : InputBatch Num}
    (added : batch.addRequest request heap = some (index, batch')) :
    ∃ registered blockTable masked, batch.registerAddRequest request = some (index, registered) ∧
      addRow registered.blockTable request.blockIds index = some blockTable ∧
      InputBatch.writeAllowedTokens
        (InputBatch.writeSampling { (registered.placeId request index).writeTokens request index heap
          with blockTable } request index) request index = some masked ∧
      batch' = masked.writeLora request index := by
  obtain ⟨⟨reqIndex, registered⟩, registration, rest⟩ := bind_eq_some_iff.mp added
  simp only at rest
  split at rest
  · obtain ⟨blockTable, rows, more⟩ := bind_eq_some_iff.mp rest
    obtain ⟨masked, written, last⟩ := bind_eq_some_iff.mp more
    simp only [Option.pure_def, some.injEq, Prod.mk.injEq] at last
    obtain ⟨rfl, rfl⟩ := last
    have same : (registered.placeId request reqIndex).blockTable = registered.blockTable := by
      unfold InputBatch.placeId
      split <;> rfl
    refine ⟨registered, blockTable, masked, registration, ?_, written, rfl⟩
    rw [← same]
    exact rows
  · contradiction


theorem addRequest_tracks [DecidableLT Num] [DecidableEq Num] (tracks : Tracks batch slots)
    (freed : Freed batch.batchUpdateBuilder slots) (request : CachedRequestState Num) (heap : Heap)
    (fresh : ∀ other, Holds slots other → other.reqId ≠ request.reqId)
    (index : Nat) (batch' : InputBatch Num)
    (added : batch.addRequest request heap = some (index, batch')) :
    Tracks batch' (place slots ⟨request, heap request.outputTokenIds, []⟩) := by
  let newcomer : LiveRequest Num := ⟨request, heap request.outputTokenIds, []⟩
  obtain ⟨registered, blockTable, masked, registration, rows, written, rfl⟩ :=
    addRequest_cases added
  obtain ⟨rfl, builder, rfl, -, -, -⟩ :=
    registerAddRequest_cases tracks.named freed registration newcomer
  have rebuilt : Named { batch with batchUpdateBuilder := builder } slots :=
    ⟨tracks.named.reqIds, tracks.named.outputs, tracks.named.room, tracks.named.spec,
      tracks.named.unique, tracks.named.index⟩
  have named := place_named rebuilt newcomer rfl fresh
  obtain ⟨reqIds, outputs, specTokenIds, shape⟩ :=
    placeId_shape { batch with batchUpdateBuilder := builder } request (newSlot slots)
  change InputBatch.writeAllowedTokens (InputBatch.writeSampling
    { (InputBatch.placeId _ request (newSlot slots)).writeTokens request (newSlot slots) heap
      with blockTable } request (newSlot slots)) request (newSlot slots) = some masked at written
  rw [shape] at named written
  obtain ⟨ids, adapters, result, requests, known⟩ := writeLora_cases masked
  obtain ⟨device, rfl⟩ := writeAllowedTokens_cases written
  show Tracks (InputBatch.writeLora _ request (newSlot slots)) (place slots newcomer)
  rw [result]
  have came := holds_place slots newcomer
  have before := tracks.registered
  have table := blockRows_add _ blockTable request.blockIds (newSlot slots) rows
  constructor
  · exact ⟨named.reqIds, named.outputs, named.room, named.spec, named.unique, named.index⟩
  · intro k live sits
    rw [seat_newcomer] at sits
    by_cases here : k = newSlot slots
    · -- The newcomer's own row has just been written.
      subst here
      rw [if_pos rfl] at sits
      obtain rfl := some.inj sits
      constructor
      · exact fun k token asked => writeTokens_tokens _ k asked
      · exact fun k inside => writeTokens_isToken _ k inside
      · exact update_self ..
      · exact update_self ..
      · exact update_self ..
      · exact table.1
      · exact update_self ..
      · exact update_self ..
      · exact update_self ..
      · exact update_self ..
      · exact update_self ..
      · exact update_self ..
      · exact update_self ..
      · exact update_self ..
    · rw [if_neg here] at sits
      apply Row.copied batch _ k k _ live _ (Nat.le_refl _) (tracks.rows k live sits)
      constructor
      · rfl
      · intro p _
        exact congrFun (update_of_ne here ..) p
      · intro p _
        exact congrFun (update_of_ne here ..) p
      · exact update_of_ne here ..
      · exact update_of_ne here ..
      · exact update_of_ne here ..
      · exact table.2 k here
      · exact update_of_ne here ..
      · exact update_of_ne here ..
      · exact update_of_ne here ..
      · exact update_of_ne here ..
      · exact update_of_ne here ..
      · exact update_of_ne here ..
      · exact update_of_ne here ..
      · exact update_of_ne here ..
  · exact IndexMap.place batch.generators _ newcomer tracks.generators
  · exact IndexMap.place batch.badWordsTokenIds _ newcomer tracks.badWords
  · constructor
    · exact IdSet.insertIf _ _ _ _ request before.greedy came
    · exact IdSet.insertIf _ _ _ _ request before.random came
    · exact IdSet.insertIf _ _ _ _ request before.topP came
    · exact IdSet.insertIf _ _ _ _ request before.topK came
    · exact IdSet.insertIf _ _ _ _ request before.frequency came
    · exact IdSet.insertIf _ _ _ _ request before.presence came
    · exact IdSet.insertIf _ _ _ _ request before.repetition came
    · exact IdSet.insertIf _ _ _ _ request before.allowed came
    · exact IdMap.set _ _ _ _ request before.logprobs fresh came
    · intro reqId member
      obtain ⟨other, held, rfl⟩ := before.inProgress reqId member
      exact ⟨other, (came other).mpr (Or.inr held), rfl⟩
  · exact place_adapted tracks.adapted newcomer _ requests known

/-! What is keyed by request id stays when requests only change their places. -/

theorem registered_moved (before : Registered batch slots) {slots' : Table Num}
    (same : ∀ request, Holds slots' request ↔ Holds slots request) {batch' : InputBatch Num}
    (config : batch'.config = batch.config)
    (greedy : batch'.greedyReqs = batch.greedyReqs)
    (random : batch'.randomReqs = batch.randomReqs)
    (topP : batch'.topPReqs = batch.topPReqs)
    (topK : batch'.topKReqs = batch.topKReqs)
    (frequency : batch'.frequencyPenaltiesReqs = batch.frequencyPenaltiesReqs)
    (presence : batch'.presencePenaltiesReqs = batch.presencePenaltiesReqs)
    (repetition : batch'.repetitionPenaltiesReqs = batch.repetitionPenaltiesReqs)
    (allowed : batch'.hasAllowedTokenIds = batch.hasAllowedTokenIds)
    (logprobs : batch'.numLogprobs = batch.numLogprobs)
    (inProgress : batch'.inProgressPromptLogprobsCpu = batch.inProgressPromptLogprobsCpu) :
    Registered batch' slots' := by
  constructor
  · rw [greedy]
    exact IdSet.congr _ _ _ _ before.greedy same
  · rw [random]
    exact IdSet.congr _ _ _ _ before.random same
  · rw [topP]
    exact IdSet.congr _ _ _ _ before.topP same
  · rw [topK, config]
    exact IdSet.congr _ _ _ _ before.topK same
  · rw [frequency]
    exact IdSet.congr _ _ _ _ before.frequency same
  · rw [presence]
    exact IdSet.congr _ _ _ _ before.presence same
  · rw [repetition]
    exact IdSet.congr _ _ _ _ before.repetition same
  · rw [allowed]
    exact IdSet.congr _ _ _ _ before.allowed same
  · rw [logprobs, config]
    exact IdMap.congr _ _ _ _ before.logprobs same
  · rw [inProgress]
    intro reqId member
    obtain ⟨request, held, rfl⟩ := before.inProgress reqId member
    exact ⟨request, (same request).mpr held, rfl⟩

/-! New draft tokens. -/

theorem updateReqSpecTokenIds_tracks (tracks : Tracks batch slots) {reqId : ReqId}
    {specTokenIds : List Token} {batch' : InputBatch Num}
    (updated : batch.updateReqSpecTokenIds reqId specTokenIds = some batch') :
    Tracks batch' (slots.map (Option.map (LiveRequest.redraft reqId specTokenIds))) := by
  obtain ⟨i, present, rest⟩ := bind_eq_some_iff.mp updated
  simp only at rest
  split at rest
  · simp only [Option.pure_def, some.injEq] at rest
    subst rest
    obtain ⟨live, sits, isThere⟩ := (tracks.named.index reqId i).mp present
    have same := holds_map slots (redraft_request reqId specTokenIds)
    have before := tracks.registered
    constructor
    · exact redraft_named tracks.named i present _ rfl rfl rfl rfl
    · intro k newLive seated
      rw [seat_map, map_eq_some_iff] at seated
      obtain ⟨old, sat, rfl⟩ := seated
      have row := tracks.rows k old sat
      by_cases here : k = i
      · subst here
        obtain rfl : old = live := some.inj (sat.symm.trans sits)
        have drafted : old.redraft reqId specTokenIds = { old with specTokenIds } := if_pos isThere
        rw [drafted]
        have tokens : ∀ k' token, LiveRequest.tokenAt { old with specTokenIds } k' = some token →
            update batch.tokenIdsCpu k (writeAt (batch.tokenIdsCpu k)
              (batch.numTokensNoSpec k) specTokenIds) k k' = token := by
          intro k' token asked
          rw [update_self, row.numTokens]
          exact redraft_tokens _ row.tokens k' asked
        exact { row with tokens }
      · have other : old.reqId ≠ reqId := fun again =>
          here (same_seat tracks.named sat sits (again.trans isThere.symm))
        have kept : old.redraft reqId specTokenIds = old := if_neg other
        rw [kept]
        have tokens : ∀ k' token, old.tokenAt k' = some token →
            update batch.tokenIdsCpu i (writeAt (batch.tokenIdsCpu i)
              (batch.numTokensNoSpec i) specTokenIds) k k' = token := by
          rw [update_of_ne here]
          exact row.tokens
        exact { row with tokens }
    · exact IndexMap.map _ _ tracks.generators _ (redraft_request reqId specTokenIds)
    · exact IndexMap.map _ _ tracks.badWords _ (redraft_request reqId specTokenIds)
    · exact registered_moved before same rfl rfl rfl rfl rfl rfl rfl rfl rfl rfl rfl
    · exact adapted_moved tracks.adapted same rfl rfl
  · contradiction

end Tracking
end VllmDcu.BatchTracks

import VllmDcu.BatchTracks

/-! Compaction and reordering: requests change their places in the table and in the
batch alike. -/
namespace VllmDcu.BatchMoves
open Requests (Token ReqId)
open LogitsProcessors PersistentBatch Slots BatchSlots BatchTracks List Option Function Dict
variable {Num : Type} {batch : InputBatch Num} {slots : Table Num}

/-! Moving the last request into an empty slot. -/

theorem moveRequest_cases {last empty : Nat} {batch' : InputBatch Num}
    (moved : batch.moveRequest last empty = some batch') :
    ∃ reqId output specTokenIds,
      batch.reqIds[last]?.join = some reqId ∧ batch.reqOutputTokenIds[last]? = some output ∧
      batch.specTokenIds[last]? = some specTokenIds ∧
      batch' = InputBatch.logMove (InputBatch.moveRows { batch with
        reqIds := (batch.reqIds.set empty (some reqId)).set last none
        reqOutputTokenIds := (batch.reqOutputTokenIds.set empty output).set last none
        reqIdToIndex := batch.reqIdToIndex.set reqId empty
        specTokenIds := (batch.specTokenIds.set empty specTokenIds).set last [] } last empty
          (batch.numTokensNoSpec last + specTokenIds.length)) last empty .unidirectional := by
  obtain ⟨reqId, named, rest⟩ := bind_eq_some_iff.mp moved
  obtain ⟨output, listed, more⟩ := bind_eq_some_iff.mp rest
  obtain ⟨specTokenIds, drafted, result⟩ := bind_eq_some_iff.mp more
  simp only [Option.pure_def, some.injEq] at result
  exact ⟨reqId, output, specTokenIds, named, listed, drafted, result.symm⟩

/-- A request at `last` and a free slot at `empty`. -/
structure Movable (slots : Table Num) (last empty : Nat) (live : LiveRequest Num) : Prop where
  sits : seat slots last = some live
  free : slots[empty]? = some none

theorem Movable.bounds {last empty : Nat} {live : LiveRequest Num}
    (movable : Movable slots last empty live) :
    last < slots.length ∧ empty < slots.length ∧ last ≠ empty ∧ seat slots empty = none := by
  have nobody : seat slots empty = none := by
    unfold seat
    rw [movable.free]
    rfl
  refine ⟨seat_bound slots last live movable.sits,
    (List.getElem?_eq_some_iff.mp movable.free).1, ?_, nobody⟩
  rintro rfl
  rw [movable.sits] at nobody
  contradiction

theorem seat_moved {last empty : Nat} {live : LiveRequest Num}
    (movable : Movable slots last empty live) (k : Nat) :
    seat (relocate slots last empty) k =
      if k = last then none else if k = empty then some live else seat slots k := by
  obtain ⟨lastBound, emptyBound, -, -⟩ := movable.bounds
  rw [seat_relocate slots last empty k lastBound emptyBound, movable.sits]

theorem holds_moved {last empty : Nat} {live : LiveRequest Num}
    (movable : Movable slots last empty live) (request : CachedRequestState Num) :
    Holds (relocate slots last empty) request ↔ Holds slots request := by
  obtain ⟨-, -, different, nobody⟩ := movable.bounds
  constructor
  · rintro ⟨i, other, sits, rfl⟩
    rw [seat_moved movable] at sits
    split at sits
    · contradiction
    · split at sits
      · obtain rfl := some.inj sits
        exact ⟨last, live, movable.sits, rfl⟩
      · exact ⟨i, other, sits, rfl⟩
  · rintro ⟨i, other, sits, rfl⟩
    by_cases here : i = last
    · subst here
      obtain rfl : other = live := some.inj (sits.symm.trans movable.sits)
      exact ⟨empty, other, by rw [seat_moved movable, if_neg different.symm, if_pos rfl], rfl⟩
    · have elsewhere : i ≠ empty := by
        rintro rfl
        rw [nobody] at sits
        contradiction
      exact ⟨i, other, by rw [seat_moved movable, if_neg here, if_neg elsewhere, sits], rfl⟩

theorem IndexMap.moved {Value : Type} (entries : Dict Nat Value)
    (value : CachedRequestState Num → Option Value) (known : IndexMap entries slots value)
    {last empty : Nat} {live : LiveRequest Num} (movable : Movable slots last empty live) :
    IndexMap (InputBatch.moveDictValue entries last empty) (relocate slots last empty) value := by
  obtain ⟨-, -, different, nobody⟩ := movable.bounds
  have source : entries.get? last = value live.request := by
    rw [known last, movable.sits, bind_some]
  have target : entries.get? empty = none := by
    rw [known empty, nobody, bind_none]
  intro k
  rw [seat_moved movable]
  unfold InputBatch.moveDictValue
  cases asked : entries.get? last with
  | none =>
    rw [asked] at source
    by_cases atLast : k = last
    · simp [atLast, asked]
    · by_cases atEmpty : k = empty
      · simp [atEmpty, target, different.symm, ← source]
      · simp [atLast, atEmpty, known k]
  | some v =>
    rw [asked] at source
    by_cases atLast : k = last
    · simp [atLast, different]
    · by_cases atEmpty : k = empty
      · simp [atEmpty, different.symm, ← source]
      · simp [atLast, atEmpty, known k]

theorem blockRow_move {table : BlockTable} {last empty : Nat} {ids : List Nat}
    (row : BlockRow table last ids) : BlockRow (table.moveRow last empty) empty ids := by
  constructor
  · show update table.numBlocksPerRow empty (table.numBlocksPerRow last) empty = _
    rw [update_self]
    exact row.count
  · intro k block found
    have inside : k < table.numBlocksPerRow last := by
      rw [row.count]
      exact (List.getElem?_eq_some_iff.mp found).1
    show update table.blockTable empty (copyPrefix _ _ (table.numBlocksPerRow last)) empty k = block
    rw [update_self, copyPrefix, if_pos inside]
    exact row.blocks k block found

theorem blockRow_move_other {table : BlockTable} {last empty k : Nat} (elsewhere : k ≠ empty)
    {ids : List Nat} (row : BlockRow table k ids) : BlockRow (table.moveRow last empty) k ids := by
  constructor
  · show update table.numBlocksPerRow empty (table.numBlocksPerRow last) k = _
    rw [update_of_ne elsewhere]
    exact row.count
  · intro j block found
    show update table.blockTable empty _ k j = block
    rw [update_of_ne elsewhere]
    exact row.blocks j block found

/-- A change of every table that carries row `source` to row `target`. -/
theorem blockRows_map {tables : List BlockTable} {change : BlockTable → BlockTable}
    {source target : Nat}
    (carried : ∀ table ids, BlockRow table source ids → BlockRow (change table) target ids)
    (blockIds : List (List Nat)) (rows : BlockRows tables source blockIds) :
    BlockRows (tables.map change) target blockIds := by
  induction tables generalizing blockIds with
  | nil => trivial
  | cons table tables ih =>
    cases blockIds with
    | nil => exact rows
    | cons first rest => exact ⟨carried table first rows.1, ih rest rows.2⟩

theorem moved_named (named : Named batch slots) {last empty : Nat} {live : LiveRequest Num}
    (movable : Movable slots last empty live) (batch' : InputBatch Num)
    (reqIds : batch'.reqIds = (batch.reqIds.set empty (some live.reqId)).set last none)
    (outputs : batch'.reqOutputTokenIds =
      (batch.reqOutputTokenIds.set empty (some live.request.outputTokenIds)).set last none)
    (index : batch'.reqIdToIndex = batch.reqIdToIndex.set live.reqId empty)
    (spec : batch'.specTokenIds = (batch.specTokenIds.set empty live.specTokenIds).set last []) :
    Named batch' (relocate slots last empty) := by
  obtain ⟨lastBound, emptyBound, different, nobody⟩ := movable.bounds
  have room := named.room
  have mover : slots[last]?.join = some live := movable.sits
  constructor
  · rw [reqIds, named.reqIds, relocate, mover, map_set, map_set]
    rfl
  · rw [outputs, named.outputs, relocate, mover, map_set, map_set]
    rfl
  · rw [spec, relocate]
    simpa using room
  · intro k inside
    rw [spec, length_set, length_set] at inside
    rw [spec, seat_moved movable, getElem?_set, getElem?_set, named.spec k inside]
    by_cases atLast : k = last
    · subst atLast
      simp [inside]
    · by_cases atEmpty : k = empty
      · subst atEmpty
        simp [inside, different, different.symm]
      · simp [atLast, atEmpty, Ne.symm atLast, Ne.symm atEmpty]
  · apply (Perm.nodup_iff ?_).mpr named.unique
    exact (relocate_perm slots movable.sits movable.free).map LiveRequest.reqId
  · intro reqId k
    rw [index, get?_set, seat_moved movable]
    by_cases same : reqId = live.reqId
    · subst same
      by_cases atEmpty : k = empty
      · subst atEmpty
        simp [different.symm]
      · simp only [↓reduceIte, some.injEq, Ne.symm atEmpty, false_iff, not_exists, not_and]
        intro other sits again
        by_cases atLast : k = last
        · simp [atLast] at sits
        · rw [if_neg atLast, if_neg atEmpty] at sits
          exact atLast (same_seat named sits movable.sits again)
    · rw [if_neg same, named.index reqId k]
      by_cases atLast : k = last
      · subst atLast
        simp [movable.sits, Ne.symm same]
      · by_cases atEmpty : k = empty
        · subst atEmpty
          simp [atLast, nobody, Ne.symm same]
        · simp [atLast, atEmpty]

section Moving
variable [Zero Num] [One Num] [LT Num]

theorem moveRequest_tracks (tracks : Tracks batch slots) {last empty : Nat}
    {live : LiveRequest Num} (movable : Movable slots last empty live) (batch' : InputBatch Num)
    (moved : batch.moveRequest last empty = some batch') :
    Tracks batch' (relocate slots last empty) := by
  obtain ⟨reqId, output, specTokenIds, named, listed, drafted, rfl⟩ := moveRequest_cases moved
  have room := tracks.named.room
  have sits := movable.sits
  have slot := (seat_eq_some slots last live).mp sits
  obtain ⟨lastBound, emptyBound, different, nobody⟩ := movable.bounds
  -- What is read at `last` is what the live request there gave.
  obtain rfl : live.reqId = reqId := by
    rw [tracks.named.reqIds, getElem?_map, slot] at named
    exact some.inj named
  obtain rfl : some live.request.outputTokenIds = output := by
    rw [tracks.named.outputs, getElem?_map, slot] at listed
    exact some.inj listed
  obtain rfl : live.specTokenIds = specTokenIds := by
    rw [tracks.named.spec last (by omega), sits] at drafted
    exact some.inj drafted
  have row := tracks.rows last live sits
  have same := holds_moved movable
  constructor
  · exact moved_named tracks.named movable _ rfl rfl rfl rfl
  · intro k other seated
    rw [seat_moved movable] at seated
    split at seated
    · contradiction
    · split at seated
      · -- The row at `empty` is a copy of the row at `last`.
        rename_i atEmpty
        subst atEmpty
        obtain rfl := some.inj seated
        apply Row.copied batch _ last k (batch.numTokensNoSpec last + live.specTokenIds.length)
          live _ (Nat.le_of_eq (by rw [row.numTokens])) row
        constructor
        · rfl
        · intro p inside
          show update batch.tokenIdsCpu k (copyPrefix _ _ _) k p = _
          rw [update_self, copyPrefix, if_pos inside]
        · intro p inside
          show update batch.isTokenIds k (copyPrefix _ _ _) k p = _
          rw [update_self, copyPrefix, if_pos inside]
        · exact update_self ..
        · exact update_self ..
        · exact update_self ..
        · exact blockRows_map fun table ids => blockRow_move
        · exact update_self ..
        · exact update_self ..
        · exact update_self ..
        · exact update_self ..
        · exact update_self ..
        · exact update_self ..
        · exact update_self ..
        · exact update_self ..
      · rename_i atLast here
        apply Row.copied batch _ k k _ other _ (Nat.le_refl _) (tracks.rows k other seated)
        constructor
        · rfl
        · intro p _
          exact congrFun (update_of_ne here ..) p
        · intro p _
          exact congrFun (update_of_ne here ..) p
        · exact update_of_ne here ..
        · exact update_of_ne here ..
        · exact update_of_ne here ..
        · exact blockRows_map fun table ids =>
            blockRow_move_other here
        · exact update_of_ne here ..
        · exact update_of_ne here ..
        · exact update_of_ne here ..
        · exact update_of_ne here ..
        · exact update_of_ne here ..
        · exact update_of_ne here ..
        · exact update_of_ne here ..
        · exact update_of_ne here ..
  · exact IndexMap.moved _ _ tracks.generators movable
  · exact IndexMap.moved _ _ tracks.badWords movable
  · exact registered_moved tracks.registered same rfl rfl rfl rfl rfl rfl rfl rfl rfl rfl rfl
  · exact adapted_moved tracks.adapted same rfl rfl

end Moving

/-! Exchanging two requests. -/

/-- Where the request at `k` was before the exchange. -/
def exchanged (i j k : Nat) : Nat := if k = j then i else if k = i then j else k

theorem swapEntries_apply {Elem : Type} (array : Nat → Elem) (i j k : Nat) :
    swapEntries array i j k = array (exchanged i j k) := by
  unfold swapEntries exchanged
  simp only [update_apply]
  split
  · rfl
  · split <;> rfl

theorem exchanged_bound (i j k n : Nat) (boundI : i < n) (boundJ : j < n) :
    exchanged i j k < n ↔ k < n := by
  unfold exchanged
  split
  · omega
  · split <;> omega

theorem seat_exchange {requests : List (LiveRequest Num)} {i j k : Nat}
    (boundI : i < requests.length) (boundJ : j < requests.length) :
    seat ((exchange requests i j).map some) k = requests[exchanged i j k]? := by
  rw [seat_map_some, exchange_getElem? requests i j k boundI boundJ]
  unfold exchanged
  split
  · rfl
  · split <;> rfl

theorem holds_perm (requests requests' : List (LiveRequest Num)) (perm : requests'.Perm requests)
    (request : CachedRequestState Num) :
    Holds (requests'.map some) request ↔ Holds (requests.map some) request := by
  have member (list : List (LiveRequest Num)) :
      Holds (list.map some) request ↔ ∃ live ∈ list, live.request = request := by
    constructor
    · rintro ⟨i, live, sits, same⟩
      rw [seat_map_some] at sits
      exact ⟨live, mem_of_getElem? sits, same⟩
    · rintro ⟨live, inside, same⟩
      obtain ⟨i, found⟩ := mem_iff_getElem?.mp inside
      exact ⟨i, live, by rw [seat_map_some, found], same⟩
  rw [member, member]
  exact exists_congr fun live => and_congr_left' perm.mem_iff

theorem assignOrPop_get? {Value : Type} (entries : Dict Nat Value) (key k : Nat)
    (value : Option Value) :
    (InputBatch.assignOrPop entries key value).get? k = if k = key then value else entries.get? k := by
  cases value with
  | none => exact get?_erase entries key k
  | some present => exact get?_set entries key k present

theorem swapDictValues_get? {Value : Type} (entries : Dict Nat Value) (i j k : Nat) :
    (InputBatch.swapDictValues entries i j).get? k = entries.get? (exchanged i j k) := by
  unfold InputBatch.swapDictValues exchanged
  rw [assignOrPop_get?, assignOrPop_get?]
  by_cases atI : k = i
  · rw [if_pos atI, if_pos atI]
    by_cases atJ : k = j
    · rw [if_pos atJ, ← atI, ← atJ]
    · rw [if_neg atJ]
  · rw [if_neg atI]
    split <;> rfl

theorem exchanged_exchanged (i j k : Nat) : exchanged i j (exchanged i j k) = k := by
  unfold exchanged
  split
  · split
    · omega
    · rw [if_pos rfl]
      omega
  · split
    · rw [if_pos rfl]
      omega
    · rfl

theorem IndexMap.exchanged_iff {Value : Type} {entries : Dict Nat Value}
    {value : CachedRequestState Num → Option Value} {requests : List (LiveRequest Num)}
    {i j : Nat} (boundI : i < requests.length) (boundJ : j < requests.length) :
    IndexMap (InputBatch.swapDictValues entries i j) ((exchange requests i j).map some) value ↔
      IndexMap entries (requests.map some) value := by
  constructor
  · intro known k
    have other := known (exchanged i j k)
    rw [swapDictValues_get?, seat_exchange boundI boundJ, exchanged_exchanged] at other
    rw [seat_map_some, other]
  · intro known k
    rw [swapDictValues_get?, known, seat_exchange boundI boundJ, seat_map_some]

theorem blockRow_swap {table : BlockTable} {i j k : Nat} {ids : List Nat}
    (row : BlockRow table (exchanged i j k) ids) : BlockRow (table.swapRow i j) k ids := by
  constructor
  · show swapEntries table.numBlocksPerRow i j k = _
    rw [swapEntries_apply]
    exact row.count
  · intro p block found
    show swapEntries table.blockTable i j k p = block
    rw [swapEntries_apply]
    exact row.blocks p block found

theorem swapList_getElem? {Elem : Type} {list swapped : List Elem} (i j k : Nat)
    (done : InputBatch.swapList list i j = some swapped) :
    i < list.length ∧ j < list.length ∧ swapped.length = list.length ∧
      swapped[k]? = list[exchanged i j k]? := by
  obtain ⟨first, here, rest⟩ := bind_eq_some_iff.mp done
  obtain ⟨second, there, last⟩ := bind_eq_some_iff.mp rest
  simp only [Option.pure_def, some.injEq] at last
  subst last
  have boundI := (List.getElem?_eq_some_iff.mp here).1
  have boundJ := (List.getElem?_eq_some_iff.mp there).1
  refine ⟨boundI, boundJ, by simp, ?_⟩
  unfold exchanged
  by_cases atJ : k = j
  · subst atJ
    simp [boundJ, here]
  · by_cases atI : k = i
    · subst atI
      simp [boundI, there, atJ, Ne.symm atJ]
    · simp [atI, atJ, Ne.symm atI, Ne.symm atJ]

theorem swapStates_cases {i j : Nat} {batch' : InputBatch Num}
    (swapped : batch.swapStates i j = some batch') :
    ∃ oldIdI1 oldIdI2 reqIds outputs specTokenIds index1 index2,
      batch.reqIds[i]?.join = some oldIdI1 ∧ batch.reqIds[j]?.join = some oldIdI2 ∧
      InputBatch.swapList batch.reqIds i j = some reqIds ∧
      InputBatch.swapList batch.reqOutputTokenIds i j = some outputs ∧
      InputBatch.swapList batch.specTokenIds i j = some specTokenIds ∧
      batch.reqIdToIndex.get? oldIdI1 = some index1 ∧
      batch.reqIdToIndex.get? oldIdI2 = some index2 ∧
      batch' = InputBatch.logMove (InputBatch.swapRows { batch with
        reqIds
        reqOutputTokenIds := outputs
        specTokenIds
        reqIdToIndex := (batch.reqIdToIndex.set oldIdI1 index2).set oldIdI2 index1 } i j)
          i j .swap := by
  obtain ⟨oldIdI1, first, rest⟩ := bind_eq_some_iff.mp swapped
  obtain ⟨oldIdI2, second, rest⟩ := bind_eq_some_iff.mp rest
  obtain ⟨reqIds, names, rest⟩ := bind_eq_some_iff.mp rest
  obtain ⟨outputs, lists, rest⟩ := bind_eq_some_iff.mp rest
  obtain ⟨specTokenIds, drafts, rest⟩ := bind_eq_some_iff.mp rest
  obtain ⟨index1, known1, rest⟩ := bind_eq_some_iff.mp rest
  obtain ⟨index2, known2, rest⟩ := bind_eq_some_iff.mp rest
  simp only [Option.pure_def, some.injEq] at rest
  exact ⟨oldIdI1, oldIdI2, reqIds, outputs, specTokenIds, index1, index2, first, second, names,
    lists, drafts, known1, known2, rest.symm⟩

theorem exchanged_named {requests : List (LiveRequest Num)}
    (named : Named batch (requests.map some)) (i j : Nat) (batch' : InputBatch Num)
    (first second : LiveRequest Num) (here : requests[i]? = some first)
    (there : requests[j]? = some second)
    (reqIds : InputBatch.swapList batch.reqIds i j = some batch'.reqIds)
    (outputs : InputBatch.swapList batch.reqOutputTokenIds i j = some batch'.reqOutputTokenIds)
    (spec : InputBatch.swapList batch.specTokenIds i j = some batch'.specTokenIds)
    (index : batch'.reqIdToIndex = (batch.reqIdToIndex.set first.reqId j).set second.reqId i) :
    Named batch' ((exchange requests i j).map some) := by
  have boundI := (List.getElem?_eq_some_iff.mp here).1
  have boundJ := (List.getElem?_eq_some_iff.mp there).1
  have perm := exchange_perm requests i j
  have slots (k : Nat) : (exchange requests i j)[k]? = requests[exchanged i j k]? := by
    rw [← seat_map_some]
    exact seat_exchange boundI boundJ
  constructor
  · apply ext_getElem?
    intro k
    rw [(swapList_getElem? i j k reqIds).2.2.2, named.reqIds]
    simp [slots]
  · apply ext_getElem?
    intro k
    rw [(swapList_getElem? i j k outputs).2.2.2, named.outputs]
    simp [slots]
  · rw [(swapList_getElem? i j 0 spec).2.2.1, length_map, perm.length_eq]
    exact (length_map some).symm.trans_le named.room
  · intro k inside
    obtain ⟨roomI, roomJ, length, entry⟩ := swapList_getElem? i j k spec
    rw [length] at inside
    rw [entry, named.spec _ ((exchanged_bound i j k _ roomI roomJ).mpr inside), seat_map_some,
      seat_map_some, slots]
  · rw [reduceOption_map_some]
    have unique := named.unique
    rw [reduceOption_map_some] at unique
    exact (perm.map LiveRequest.reqId).nodup_iff.mpr unique
  · intro reqId k
    have known (other : ReqId) (m : Nat) : batch.reqIdToIndex.get? other = some m ↔
        ∃ live, requests[m]? = some live ∧ live.reqId = other := by
      rw [named.index other m]
      exact exists_congr fun live => by rw [seat_map_some]
    have before := known reqId
    rw [seat_map_some, slots, index, get?_set, get?_set]
    rw [← before]
    have atI : batch.reqIdToIndex.get? first.reqId = some i := (known _ i).mpr ⟨first, here, rfl⟩
    have atJ : batch.reqIdToIndex.get? second.reqId = some j := (known _ j).mpr ⟨second, there, rfl⟩
    unfold exchanged
    by_cases isSecond : reqId = second.reqId
    · rw [if_pos isSecond, isSecond, atJ, some.injEq, some.injEq]
      split
      · omega
      · split <;> omega
    · rw [if_neg isSecond]
      by_cases isFirst : reqId = first.reqId
      · rw [if_pos isFirst, isFirst, atI, some.injEq, some.injEq]
        split
        · omega
        · split <;> omega
      · rw [if_neg isFirst]
        -- Nobody else was at either index.
        have notI : batch.reqIdToIndex.get? reqId ≠ some i := by
          intro found
          obtain ⟨live, sits, rfl⟩ := (before i).mp found
          exact isFirst (congrArg LiveRequest.reqId (some.inj (sits.symm.trans here)))
        have notJ : batch.reqIdToIndex.get? reqId ≠ some j := by
          intro found
          obtain ⟨live, sits, rfl⟩ := (before j).mp found
          exact isSecond (congrArg LiveRequest.reqId (some.inj (sits.symm.trans there)))
        split
        · rename_i atJ'
          rw [atJ']
          exact iff_of_false notJ notI
        · split
          · rename_i atI'
            rw [atI']
            exact iff_of_false notI notJ
          · rfl

/-! The loop of `condense`. -/

theorem skipRemoved_spec {removed : List Nat} {last : Nat} :
    InputBatch.skipRemoved removed last ≤ last ∧
      (∀ i, InputBatch.skipRemoved removed last < i → i ≤ last → i ∈ removed) ∧
      (InputBatch.skipRemoved removed last ∈ removed →
        InputBatch.skipRemoved removed last = 0) := by
  induction last with
  | zero =>
    refine ⟨Nat.le_refl _, ?_, fun _ => rfl⟩
    omega
  | succ last ih =>
    unfold InputBatch.skipRemoved
    by_cases gone : last + 1 ∈ removed
    · rw [if_pos gone]
      refine ⟨Nat.le_succ_of_le ih.1, ?_, ih.2.2⟩
      intro i above within
      rcases Nat.lt_or_ge last i with top | lower
      · obtain rfl : i = last + 1 := by omega
        exact gone
      · exact ih.2.1 i above lower
    · rw [if_neg gone]
      refine ⟨Nat.le_refl _, ?_, fun here => absurd here gone⟩
      omega

/-- The builder lists the free slots up to `last`, and nobody sits beyond. -/
structure Closing (builder : BatchUpdateBuilder Num) (slots : Table Num) (last : Nat) : Prop where
  sorted : builder.isRemovedSorted = true
  descending : builder.removedList.Pairwise (· > ·)
  free : ∀ i ∈ builder.removedList, slots[i]? = some none
  listed : ∀ i ≤ last, slots[i]? = some none → i ∈ builder.removedList
  beyond : ∀ i, last < i → seat slots i = none
  bound : last < slots.length

theorem sorted_ensure {builder : BatchUpdateBuilder Num}
    (sorted : builder.isRemovedSorted = true) : builder.ensureRemovedSorted = builder :=
  if_pos sorted

variable {builder : BatchUpdateBuilder Num}

theorem Closing.skip {last : Nat} (closing : Closing builder slots last) :
    Closing builder slots (InputBatch.skipRemoved builder.removedList last) := by
  obtain ⟨lower, skipped, -⟩ := skipRemoved_spec
  constructor
  · exact closing.sorted
  · exact closing.descending
  · exact closing.free
  · exact fun i within => closing.listed i (Nat.le_trans within lower)
  · intro i above
    rcases Nat.lt_or_ge last i with top | within
    · exact closing.beyond i top
    · unfold seat
      rw [closing.free i (skipped i above within)]
      rfl
  · exact Nat.lt_of_le_of_lt lower closing.bound

/-- The last entry of the descending list is the lowest free slot of the table. -/
theorem Closing.lowest {last empty : Nat} (closing : Closing builder slots last)
    (least : builder.removedList.getLast? = some empty) (within : empty ≤ last) :
    lowestFree slots = some empty ∧ builder.removedList = builder.removedList.dropLast ++ [empty] ∧
      ∀ i ∈ builder.removedList.dropLast, empty < i := by
  obtain ⟨front, shape⟩ := getLast?_eq_some_iff.mp least
  have later : ∀ i ∈ front, empty < i := by
    have order := closing.descending
    rw [shape, pairwise_append] at order
    exact fun i member => order.2.2 i member empty (mem_singleton_self empty)
  refine ⟨?_, by rw [shape, dropLast_concat], by rw [shape, dropLast_concat]; exact later⟩
  apply lowestFree_eq
  · exact closing.free empty (by rw [shape]; simp)
  · intro i earlier free
    have member := closing.listed i (by omega) free
    rw [shape, mem_append, mem_singleton] at member
    rcases member with inFront | rfl
    · have above := later i inFront
      omega
    · omega

theorem Closing.occupied {last : Nat} (closing : Closing builder slots last) (i : Nat)
    (within : i ≤ last) (kept : i ∉ builder.removedList) : ∃ live, seat slots i = some live := by
  have bound : i < slots.length := Nat.lt_of_le_of_lt within closing.bound
  cases slot : slots[i] with
  | none =>
    have free : slots[i]? = some none := by rw [getElem?_eq_getElem bound, slot]
    exact absurd (closing.listed i within free) kept
  | some live =>
    exact ⟨live, (seat_eq_some slots i live).mpr (by rw [getElem?_eq_getElem bound, slot])⟩

/-- Filling the lowest free slot from `last` leaves one index less to look at. -/
theorem Closing.step {last empty : Nat} {live : LiveRequest Num}
    (closing : Closing builder slots last) (least : builder.removedList.getLast? = some empty)
    (below : empty < last) (kept : last ∉ builder.removedList)
    (movable : Movable slots last empty live) (builder' : BatchUpdateBuilder Num)
    (flag : builder'.isRemovedSorted = true)
    (popped : builder'.removedList = builder.removedList.dropLast) :
    Closing builder' (relocate slots last empty) (last - 1) := by
  obtain ⟨-, shape, later⟩ := closing.lowest least (Nat.le_of_lt below)
  obtain ⟨lastBound, emptyBound, different, -⟩ := movable.bounds
  have slot (i : Nat) (notLast : i ≠ last) (notEmpty : i ≠ empty) :
      (relocate slots last empty)[i]? = slots[i]? := by
    unfold relocate
    rw [getElem?_set, if_neg (Ne.symm notLast), getElem?_set, if_neg (Ne.symm notEmpty)]
  constructor
  · exact flag
  · rw [popped]
    exact closing.descending.sublist (dropLast_sublist _)
  · intro i member
    rw [popped] at member
    have before : i ∈ builder.removedList := mem_of_mem_dropLast member
    have notLast : i ≠ last := fun same => kept (same ▸ before)
    have notEmpty : i ≠ empty := Nat.ne_of_gt (later i member)
    rw [slot i notLast notEmpty]
    exact closing.free i before
  · intro i within free
    have notLast : i ≠ last := by omega
    have notEmpty : i ≠ empty := by
      rintro rfl
      have taken := (seat_eq_some _ i live).mp (by
        rw [seat_moved movable, if_neg notLast, if_pos rfl])
      rw [free] at taken
      exact absurd (some.inj taken) (by simp)
    rw [slot i notLast notEmpty] at free
    have before := closing.listed i (by omega) free
    rw [shape, mem_append, mem_singleton] at before
    rw [popped]
    exact before.resolve_right notEmpty
  · intro i above
    rw [seat_moved movable]
    by_cases atLast : i = last
    · rw [if_pos atLast]
    · rw [if_neg atLast, if_neg (by omega)]
      exact closing.beyond i (by omega)
  · unfold relocate
    rw [length_set, length_set]
    omega

/-- When the loop stops, the occupied slots are an initial segment. -/
theorem Closing.done {last : Nat} (closing : Closing builder slots last)
    (none_below : ∀ i ∈ builder.removedList, last ≤ i)
    (atLast : last ∈ builder.removedList → last = 0) :
    ∃ rest, slots = (closeGaps slots).map some ++ rest ∧ (∀ x, some x ∉ rest) ∧
      ∀ i ∈ builder.removedList, (closeGaps slots).length ≤ i := by
  have finish (m : Nat) (front : ∀ i < m, ∃ live, seat slots i = some live)
      (beyond : ∀ i, m ≤ i → seat slots i = none) :
      ∃ rest, slots = (closeGaps slots).map some ++ rest ∧ (∀ x, some x ∉ rest) ∧
        ∀ i ∈ builder.removedList, (closeGaps slots).length ≤ i := by
    obtain ⟨occupants, rest, shape, length, empty⟩ := split_occupied slots m front beyond
    have closed : closeGaps slots = occupants := by
      rw [shape]
      exact closeGaps_dense occupants rest empty
    refine ⟨rest, by rw [closed]; exact shape, empty, ?_⟩
    intro i member
    rw [closed]
    by_contra inside
    obtain ⟨live, sits⟩ := front i (by omega)
    have free := closing.free i member
    rw [(seat_eq_some slots i live).mp sits] at free
    exact absurd (some.inj free) (by simp)
  by_cases listed : last ∈ builder.removedList
  · have zero := atLast listed
    apply finish 0 (fun i impossible => absurd impossible (Nat.not_lt_zero i))
    intro i _
    rcases Nat.eq_zero_or_pos i with rfl | above
    · unfold seat
      rw [closing.free 0 (zero ▸ listed)]
      rfl
    · exact closing.beyond i (by omega)
  · apply finish (last + 1)
    · intro i inside
      apply closing.occupied i (by omega)
      intro member
      have above := none_below i member
      obtain rfl : i = last := by omega
      exact listed member
    · exact fun i above => closing.beyond i (by omega)

theorem ensure_sorted {builder : BatchUpdateBuilder Num} :
    builder.ensureRemovedSorted.isRemovedSorted = true ∧
      builder.ensureRemovedSorted.added = builder.added ∧
      builder.ensureRemovedSorted.moved = builder.moved := by
  unfold BatchUpdateBuilder.ensureRemovedSorted
  by_cases flag : builder.isRemovedSorted = true
  · rw [if_pos flag]
    exact ⟨flag, rfl, rfl⟩
  · rw [if_neg flag]
    exact ⟨rfl, rfl, rfl⟩

/-- The batch once the lowest removed index has been taken from a sorted list. -/
def popLast (batch : InputBatch Num) : InputBatch Num :=
  { batch with batchUpdateBuilder := { batch.batchUpdateBuilder with
    removedList := batch.batchUpdateBuilder.removedList.dropLast } }

theorem condenseLoop_eq (turns last : Nat) (batch : InputBatch Num)
    (sorted : batch.batchUpdateBuilder.isRemovedSorted = true) :
    InputBatch.condenseLoop (turns + 1) last batch =
      let removed := batch.batchUpdateBuilder.removedList
      match removed.getLast? with
      | none => some batch
      | some empty =>
        if empty ≥ InputBatch.skipRemoved removed last then some batch
        else ((popLast batch).moveRequest (InputBatch.skipRemoved removed last) empty).bind
          (InputBatch.condenseLoop turns (InputBatch.skipRemoved removed last - 1)) := by
  have same := sorted_ensure sorted
  rw [InputBatch.condenseLoop]
  unfold BatchUpdateBuilder.removed BatchUpdateBuilder.peekRemoved BatchUpdateBuilder.popRemoved
    BatchUpdateBuilder.hasRemoved popLast
  rw [same]
  cases listed : batch.batchUpdateBuilder.removedList with
  | nil => simp
  | cons first rest =>
    have least : (first :: rest).getLast? = some ((first :: rest).getLast (by simp)) :=
      getLast?_eq_some_getLast (by simp)
    simp only [isEmpty_cons, Bool.false_eq_true, ↓reduceIte, Bool.not_false, least, same, listed]
    by_cases stop : (first :: rest).getLast (by simp) ≥
        InputBatch.skipRemoved (first :: rest) last
    · rw [if_pos stop, if_pos stop]
    · rfl

section Closing
variable [Zero Num] [One Num] [LT Num]

/-- The table is not held by the builder, the processors or what the sampler reads. -/
theorem tracks_frame (tracks : Tracks batch slots) {builder : BatchUpdateBuilder Num}
    {logitsprocs : LogitsProcessorStates Num} {device : Option (Nat → Nat → Bool)}
    {samplingMetadata : SamplingMetadata} :
    Tracks { batch with
      batchUpdateBuilder := builder
      logitsprocs
      allowedTokenIdsMask := device
      samplingMetadata } slots := by
  constructor
  · exact ⟨tracks.named.reqIds, tracks.named.outputs, tracks.named.room, tracks.named.spec,
      tracks.named.unique, tracks.named.index⟩
  · intro i live sits
    exact { tracks.rows i live sits with }
  · exact tracks.generators
  · exact tracks.badWords
  · exact registered_moved tracks.registered (fun _ => Iff.rfl)
      rfl rfl rfl rfl rfl rfl rfl rfl rfl rfl rfl
  · exact adapted_moved tracks.adapted (fun _ => Iff.rfl) rfl rfl

theorem tracks_rebuilt (tracks : Tracks batch slots) (builder : BatchUpdateBuilder Num) :
    Tracks { batch with batchUpdateBuilder := builder } slots :=
  tracks_frame tracks

/-- What a relation between the batch and its table must withstand to hold over the loop. -/
structure LoopInvariant (P : InputBatch Num → Table Num → Prop) : Prop where
  rebuild : ∀ batch slots builder, P batch slots →
    builder.added = batch.batchUpdateBuilder.added →
    builder.moved = batch.batchUpdateBuilder.moved →
    P { batch with batchUpdateBuilder := builder } slots
  move : ∀ batch slots last empty live batch', Tracks batch slots → P batch slots →
    Movable slots last empty live → lowestFree slots = some empty → empty < last →
    (∀ i, last < i → seat slots i = none) → batch.moveRequest last empty = some batch' →
    P batch' (relocate slots last empty)
  trim : ∀ batch slots n, P batch slots → P (batch.trim n) slots

theorem condenseLoop_spec {P : InputBatch Num → Table Num → Prop} (invariant : LoopInvariant P)
    (turns last : Nat) (batch batch' : InputBatch Num) (slots : Table Num)
    (tracks : Tracks batch slots) (holds : P batch slots)
    (closing : Closing batch.batchUpdateBuilder slots last)
    (enough : batch.batchUpdateBuilder.removedList.length ≤ turns)
    (ran : InputBatch.condenseLoop turns last batch = some batch') :
    ∃ rest, (∀ x, some x ∉ rest) ∧ Tracks batch' ((closeGaps slots).map some ++ rest) ∧
      P batch' ((closeGaps slots).map some ++ rest) ∧
      ∀ i, i ∈ batch'.batchUpdateBuilder.removedList ↔
        (closeGaps slots).length ≤ i ∧ i ∈ batch.batchUpdateBuilder.removedList := by
  induction turns generalizing last batch slots with
  | zero =>
    obtain rfl : batch = batch' := some.inj ran
    have bare : batch.batchUpdateBuilder.removedList = [] :=
      eq_nil_of_length_eq_zero (Nat.le_zero.mp enough)
    obtain ⟨rest, shape, empty, beyond⟩ := closing.done (by simp [bare]) (by simp [bare])
    exact ⟨rest, empty, shape ▸ tracks, shape ▸ holds,
      fun i => (and_iff_right_of_imp (beyond i)).symm⟩
  | succ turns ih =>
    rw [condenseLoop_eq turns last batch closing.sorted] at ran
    obtain ⟨lower, skipped, top⟩ := skipRemoved_spec
    have skip := closing.skip
    cases least : batch.batchUpdateBuilder.removedList.getLast? with
    | none =>
      simp only [least, some.injEq] at ran
      subst ran
      have bare := getLast?_eq_none_iff.mp least
      obtain ⟨rest, shape, empty, beyond⟩ := closing.done (by simp [bare]) (by simp [bare])
      exact ⟨rest, empty, shape ▸ tracks, shape ▸ holds,
        fun i => (and_iff_right_of_imp (beyond i)).symm⟩
    | some emptyIndex =>
      simp only [least] at ran
      by_cases stop : emptyIndex ≥
          InputBatch.skipRemoved batch.batchUpdateBuilder.removedList last
      · rw [if_pos stop, some.injEq] at ran
        subst ran
        -- The lowest free slot lies behind the last request.
        have above : ∀ i ∈ batch.batchUpdateBuilder.removedList,
            InputBatch.skipRemoved batch.batchUpdateBuilder.removedList last ≤ i := by
          obtain ⟨front, listed⟩ := getLast?_eq_some_iff.mp least
          have order := closing.descending
          rw [listed, pairwise_append] at order
          intro i member
          rw [listed, mem_append, mem_singleton] at member
          rcases member with inFront | rfl
          · have later := order.2.2 i inFront emptyIndex (mem_singleton_self emptyIndex)
            omega
          · exact stop
        obtain ⟨rest, shape, empty, beyond⟩ := skip.done above top
        exact ⟨rest, empty, shape ▸ tracks, shape ▸ holds,
          fun i => (and_iff_right_of_imp (beyond i)).symm⟩
      · rw [if_neg stop] at ran
        have below : emptyIndex <
            InputBatch.skipRemoved batch.batchUpdateBuilder.removedList last := by omega
        have kept : InputBatch.skipRemoved batch.batchUpdateBuilder.removedList last ∉
            batch.batchUpdateBuilder.removedList := by
          intro member
          have zero := top member
          omega
        obtain ⟨lowest, listed, -⟩ := skip.lowest least (Nat.le_of_lt below)
        obtain ⟨live, sits⟩ := skip.occupied _ (Nat.le_refl _) kept
        have movable : Movable slots _ emptyIndex live := ⟨sits, (lowestFree_some slots lowest).1⟩
        obtain ⟨moved, moves, again⟩ := bind_eq_some_iff.mp ran
        have poppedTracks : Tracks (popLast batch) slots := tracks_rebuilt tracks _
        have poppedHolds : P (popLast batch) slots := invariant.rebuild batch slots _ holds rfl rfl
        have tracked := moveRequest_tracks poppedTracks movable moved moves
        have held := invariant.move _ slots _ emptyIndex live moved poppedTracks poppedHolds
          movable lowest below skip.beyond moves
        have shape : moved.batchUpdateBuilder.removedList =
            batch.batchUpdateBuilder.removedList.dropLast ∧
            moved.batchUpdateBuilder.isRemovedSorted = true := by
          obtain ⟨_, _, _, -, -, -, rfl⟩ := moveRequest_cases moves
          exact ⟨rfl, closing.sorted⟩
        have closed := skip.step least below kept movable moved.batchUpdateBuilder shape.2 shape.1
        have fewer : moved.batchUpdateBuilder.removedList.length ≤ turns := by
          have size := congrArg length listed
          rw [length_append, length_singleton] at size
          rw [shape.1]
          omega
        have same := closeGaps_move slots _ emptyIndex live lowest sits below skip.beyond
        have low := lowestFree_lt_occupied slots _ emptyIndex live lowest sits below
        obtain ⟨rest, empty, finalTracks, finalHolds, left⟩ :=
          ih _ moved _ tracked held closed fewer again
        rw [same] at finalTracks finalHolds left
        refine ⟨rest, empty, finalTracks, finalHolds, ?_⟩
        intro i
        rw [left i, shape.1]
        apply and_congr_right
        intro outside
        rw [closeGaps_length] at outside
        rw [listed, dropLast_concat, mem_append, mem_singleton]
        exact (or_iff_left (by omega)).symm

/-- Cutting the lists behind the last request. -/
theorem trim_tracks (requests : List (LiveRequest Num)) (rest : Table Num)
    (empty : ∀ x, some x ∉ rest) (tracks : Tracks batch (requests.map some ++ rest)) :
    Tracks (batch.trim requests.length) (requests.map some) := by
  have seats (k : Nat) : seat (requests.map some ++ rest) k = seat (requests.map some) k := by
    rw [seat_append_free requests rest empty, seat_map_some]
  have same (request : CachedRequestState Num) :
      Holds (requests.map some) request ↔ Holds (requests.map some ++ rest) request := by
    unfold Holds
    simp only [seats]
  have named := tracks.named
  have room := named.room
  rw [length_append, length_map] at room
  constructor
  · constructor
    · show batch.reqIds.take requests.length = _
      rw [named.reqIds, map_append, take_append_of_le_length (by simp), take_of_length_le (by simp)]
    · show batch.reqOutputTokenIds.take requests.length = _
      rw [named.outputs, map_append, take_append_of_le_length (by simp),
        take_of_length_le (by simp)]
    · show _ ≤ (batch.specTokenIds.take requests.length).length
      rw [length_map, length_take]
      omega
    · intro k inside
      have within : k < requests.length ∧ k < batch.specTokenIds.length := by
        simpa [InputBatch.trim] using inside
      show (batch.specTokenIds.take requests.length)[k]? = _
      rw [getElem?_take, if_pos within.1, named.spec k within.2, seats]
    · have unique := named.unique
      rw [reduceOption_append, reduceOption_free rest empty, append_nil] at unique
      exact unique
    · intro reqId k
      rw [← seats]
      exact named.index reqId k
  · intro k live sits
    rw [← seats] at sits
    exact { tracks.rows k live sits with }
  · intro k
    rw [← seats]
    exact tracks.generators k
  · intro k
    rw [← seats]
    exact tracks.badWords k
  · exact registered_moved tracks.registered same rfl rfl rfl rfl rfl rfl rfl rfl rfl rfl rfl
  · exact adapted_moved tracks.adapted same rfl rfl

/-- Compaction closes the gaps, and what the loop keeps holds of the result. -/
theorem condense_spec {P : InputBatch Num → Table Num → Prop} (invariant : LoopInvariant P)
    {batch batch' : InputBatch Num} {slots : Table Num} (tracks : Tracks batch slots)
    (holds : P batch slots) (freed : Freed batch.batchUpdateBuilder slots)
    (condensed : batch.condense = some batch') :
    Tracks batch' ((closeGaps slots).map some) ∧
      (∃ rest, (∀ x, some x ∉ rest) ∧ P batch' ((closeGaps slots).map some ++ rest)) ∧
      ∀ i, i ∈ batch'.batchUpdateBuilder.removedList ↔
        (closeGaps slots).length ≤ i ∧ slots[i]? = some none := by
  obtain ⟨sortedFreed, descending⟩ := ensureRemovedSorted_freed batch.batchUpdateBuilder freed
  obtain ⟨flag, added, moved⟩ := ensure_sorted
  have size := numReqs_eq tracks.named
  have readTracks := tracks_rebuilt tracks batch.batchUpdateBuilder.ensureRemovedSorted
  have readHolds := invariant.rebuild batch slots _ holds added moved
  have count := sortedFreed.count
  unfold InputBatch.condense BatchUpdateBuilder.removed at condensed
  simp only at condensed
  by_cases bare : batch.batchUpdateBuilder.ensureRemovedSorted.removedList.isEmpty = true
  · -- Every freed slot was taken by an added request.
    rw [if_pos bare, some.injEq] at condensed
    subst condensed
    have listed := List.isEmpty_iff.mp bare
    have full : none ∉ slots := by
      intro member
      obtain ⟨i, free⟩ := mem_iff_getElem?.mp member
      have inList := (sortedFreed.free i).mpr free
      simp [listed] at inList
    obtain ⟨requests, rfl⟩ := all_occupied slots full
    have closed : closeGaps (requests.map some) = requests := by
      have dense := closeGaps_dense requests [] (by simp)
      rwa [append_nil] at dense
    rw [closed]
    refine ⟨readTracks, ⟨[], by simp, by rwa [append_nil]⟩, ?_⟩
    intro i
    apply iff_of_false
    · simp [listed]
    · rintro ⟨-, free⟩
      exact full (mem_of_getElem? free)
  · rw [if_neg bare] at condensed
    have done (final : InputBatch Num) (requests : List (LiveRequest Num)) (rest : Table Num)
        (same : closeGaps slots = requests)
        (empty : ∀ x, some x ∉ rest) (finalTracks : Tracks final (requests.map some ++ rest))
        (finalHolds : P final (requests.map some ++ rest)) :
        Tracks (final.trim batch.numReqs) ((closeGaps slots).map some) ∧
          ∃ rest, (∀ x, some x ∉ rest) ∧
            P (final.trim batch.numReqs) ((closeGaps slots).map some ++ rest) := by
      have length : batch.numReqs = requests.length := by
        rw [size, ← closeGaps_length, same]
      rw [same, length]
      exact ⟨trim_tracks requests rest empty finalTracks, rest, empty,
        invariant.trim _ _ _ finalHolds⟩
    by_cases idle : batch.numReqs = 0
    · rw [if_pos idle, some.injEq] at condensed
      have nobody : occupied slots = 0 := size.symm.trans idle
      have closed : closeGaps slots = [] :=
        eq_nil_of_length_eq_zero ((closeGaps_length slots).trans nobody)
      have empty : ∀ x, some x ∉ slots := by
        intro x member
        have inside := reduceOption_mem_iff.mpr member
        rw [eq_nil_of_length_eq_zero nobody] at inside
        simp at inside
      obtain ⟨trimmed, rest⟩ := done _ [] slots closed empty readTracks readHolds
      rw [idle] at trimmed rest
      subst condensed
      refine ⟨trimmed, rest, ?_⟩
      intro i
      rw [closed]
      exact (sortedFreed.free i).trans (and_iff_right (Nat.zero_le i)).symm
    · rw [if_neg idle] at condensed
      obtain ⟨final, ran, rfl⟩ := map_eq_some_iff.mp condensed
      have last : batch.numReqs +
          batch.batchUpdateBuilder.ensureRemovedSorted.removedList.length - 1 =
          slots.length - 1 := by omega
      have closing : Closing batch.batchUpdateBuilder.ensureRemovedSorted slots
          (slots.length - 1) := by
        constructor
        · exact flag
        · exact descending
        · exact fun i member => (sortedFreed.free i).mp member
        · exact fun i _ free => (sortedFreed.free i).mpr free
        · intro i above
          unfold seat
          rw [getElem?_eq_none (by omega)]
          rfl
        · omega
      rw [last] at ran
      obtain ⟨rest, empty, finalTracks, finalHolds, left⟩ := condenseLoop_spec invariant _ _ _ final
        slots readTracks readHolds closing (Nat.le_refl _) ran
      obtain ⟨trimmed, kept⟩ := done final _ rest rfl empty finalTracks finalHolds
      refine ⟨trimmed, kept, ?_⟩
      intro i
      exact (left i).trans (and_congr_right' (sortedFreed.free i))

end Closing

section Swapping
variable [Zero Num] [One Num] [LT Num]

theorem swapStates_tracks {requests : List (LiveRequest Num)}
    (tracks : Tracks batch (requests.map some)) (i j : Nat) (batch' : InputBatch Num)
    (swapped : batch.swapStates i j = some batch') :
    i < requests.length ∧ j < requests.length ∧
      Tracks batch' ((exchange requests i j).map some) := by
  obtain ⟨oldIdI1, oldIdI2, reqIds, outputs, specTokenIds, index1, index2, name1, name2, names,
    lists, drafts, known1, known2, rfl⟩ := swapStates_cases swapped
  have at_ (m : Nat) (reqId : ReqId) (name : batch.reqIds[m]?.join = some reqId) :
      ∃ live, requests[m]? = some live ∧ live.reqId = reqId := by
    rw [tracks.named.reqIds, List.map_map, getElem?_map] at name
    cases sits : requests[m]? with
    | none => simp [sits] at name
    | some live =>
      rw [sits] at name
      exact ⟨live, rfl, some.inj name⟩
  obtain ⟨first, here, rfl⟩ := at_ i oldIdI1 name1
  obtain ⟨second, there, rfl⟩ := at_ j oldIdI2 name2
  have boundI := (List.getElem?_eq_some_iff.mp here).1
  have boundJ := (List.getElem?_eq_some_iff.mp there).1
  obtain rfl : i = index1 := some.inj (((tracks.named.index first.reqId i).mpr
    ⟨first, by rw [seat_map_some, here], rfl⟩).symm.trans known1)
  obtain rfl : j = index2 := some.inj (((tracks.named.index second.reqId j).mpr
    ⟨second, by rw [seat_map_some, there], rfl⟩).symm.trans known2)
  have same := holds_perm requests (exchange requests i j) (exchange_perm requests i j)
  refine ⟨boundI, boundJ, ?_⟩
  constructor
  · exact exchanged_named tracks.named i j _ first second here there names lists drafts rfl
  · intro k live sits
    rw [seat_exchange boundI boundJ, ← seat_map_some] at sits
    apply Row.copied batch _ (exchanged i j k) k _ live _ (Nat.le_refl _)
      (tracks.rows (exchanged i j k) live sits)
    constructor
    · rfl
    · intro p _
      exact congrFun (swapEntries_apply ..) p
    · intro p _
      exact congrFun (swapEntries_apply ..) p
    · exact swapEntries_apply ..
    · exact swapEntries_apply ..
    · exact swapEntries_apply ..
    · exact blockRows_map fun table ids => blockRow_swap
    · exact swapEntries_apply ..
    · exact swapEntries_apply ..
    · exact swapEntries_apply ..
    · exact swapEntries_apply ..
    · exact swapEntries_apply ..
    · exact swapEntries_apply ..
    · exact swapEntries_apply ..
    · exact swapEntries_apply ..
  · exact (IndexMap.exchanged_iff boundI boundJ).mpr tracks.generators
  · exact (IndexMap.exchanged_iff boundI boundJ).mpr tracks.badWords
  · exact registered_moved tracks.registered same rfl rfl rfl rfl rfl rfl rfl rfl rfl rfl rfl
  · exact adapted_moved tracks.adapted same rfl rfl

end Swapping
end VllmDcu.BatchMoves

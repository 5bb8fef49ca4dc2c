import VllmDcu.ExpertBalance

/-! The slots of a GPU after a rearrangement: what the two passes keep, and that the physical experts of
the GPU are only reordered. -/
namespace VllmDcu.SlotPreserving
open TensorRows IndexPermutations ExpertBalance ExpertBalance.Loads List Option Function

variable {oldLocal : List Int} {newLocal : List Slot}

/-- Whether the old map has the expert there. -/
def was (oldLocal : List Int) (expert i : Nat) : Bool :=
  oldLocal[i]?.any fun old => old = (expert : Int)

/-- Whether the physical expert there is one of this expert. -/
def now (slots : List Slot) (expert i : Nat) : Bool :=
  slots[i]?.any fun slot => slot.1 = expert

/-- After the first slots of the first pass: what was put in its old slot, and from where. -/
structure Kept (post : List Slot) (start : Nat) (oldLocal : List Int) (newLocal : List Slot)
    (slotIdx : Nat) (state : Preserving) : Prop where
  length : state.post.length = post.length
  outside : ∀ i, i < start ∨ start + newLocal.length ≤ i → state.post[i]? = post[i]?
  used : state.usedNewIndices.length = newLocal.length
  preserved : state.preservedPositions.length = newLocal.length
  visited : slotIdx ≤ oldLocal.length
  later : ∀ i, slotIdx ≤ i → i < newLocal.length → state.preservedPositions[i]? = some false
  moved : ((flagged state.preservedPositions).map fun i => state.post[start + i]?).Perm
    ((flagged state.usedNewIndices).map fun i => newLocal[i]?)
  same : ∀ i ∈ flagged state.preservedPositions, ∃ slot : Slot,
    state.post[start + i]? = some slot ∧ oldLocal[i]? = some (slot.1 : Int)
  counts : ∀ expert : Nat, (flagged state.preservedPositions).countP (was oldLocal expert) =
    min ((oldLocal.take slotIdx).count (expert : Int)) (newLocal.countP fun slot => slot.1 = expert)

theorem count_take {row : List Int} {i : Nat} {value expert : Int} (found : row[i]? = some value) :
    (row.take (i + 1)).count expert = (row.take i).count expert + if value = expert then 1 else 0 := by
  rw [take_add_one, count_append, found, toList_some, count_singleton]
  simp only [beq_iff_eq]

namespace Kept
variable {post : List Slot} {start slotIdx : Nat} {state next : Preserving}

section
variable (kept : Kept post start oldLocal newLocal slotIdx state)
include kept

/-- As many used physical experts of an expert as there are slots kept for it. -/
theorem used_count (expert : Nat) :
    (flagged state.usedNewIndices).countP (now newLocal expert) =
      (flagged state.preservedPositions).countP (was oldLocal expert) := by
  have counted := kept.moved.countP_eq (Option.any fun slot => decide (slot.1 = expert))
  rw [countP_map, countP_map] at counted
  apply counted.symm.trans
  apply countP_congr
  intro i member
  obtain ⟨slot, placed, old⟩ := kept.same i member
  simp only [comp_apply, was, placed, old, any_some, decide_eq_true_eq, Int.ofNat_inj]

/-- Used and unused are all physical experts of an expert. -/
theorem count_split (expert : Nat) :
    newLocal.countP (fun slot => slot.1 = expert) =
      (flagged state.preservedPositions).countP (was oldLocal expert) +
        (flagged (state.usedNewIndices.map not)).countP (now newLocal expert) := by
  rw [← kept.used_count expert, ← countP_append,
    (flagged_append state.usedNewIndices).countP_eq, kept.used]
  exact (range_countP_read newLocal _).symm

/-- No match: all physical experts of the old one are used. -/
theorem unmatched (old : Int) (found : oldLocal[slotIdx]? = some old)
    (unused : ∀ (i : Nat) (slot : Slot), newLocal[i]? = some slot →
      state.usedNewIndices[i]? = some false → (slot.1 : Int) ≠ old) :
    Kept post start oldLocal newLocal (slotIdx + 1) state := by
  refine ⟨kept.length, kept.outside, kept.used, kept.preserved,
    (List.getElem?_eq_some_iff.mp found).1, fun i after => kept.later i (by omega), kept.moved,
    kept.same, ?_⟩
  intro expert
  have before := kept.counts expert
  have split := kept.count_split expert
  rw [count_take found]
  by_cases same : old = expert
  · have none : (flagged (state.usedNewIndices.map not)).countP (now newLocal expert) = 0 := by
      rw [countP_eq_zero]
      intro i member set
      rw [mem_flagged, getElem?_map, map_eq_some_iff] at member
      obtain ⟨flag, unset, negated⟩ := member
      unfold now at set
      cases slotAt : newLocal[i]? with
      | none =>
        rw [slotAt] at set
        contradiction
      | some slot =>
        rw [slotAt, any_some, decide_eq_true_eq] at set
        cases flag with
        | true => contradiction
        | false => exact unused i slot slotAt unset (by rw [same, set])
    omega
  · rw [if_neg same]
    exact before

/-- A match: one more slot is kept. -/
theorem matched (slot : Slot) (place : Nat)
    (found : oldLocal[slotIdx]? = some (slot.1 : Int)) (inside : slotIdx < newLocal.length)
    (fits : start + newLocal.length ≤ post.length) (read : newLocal[place]? = some slot)
    (unset : state.usedNewIndices[place]? = some false) :
    Kept post start oldLocal newLocal (slotIdx + 1)
      { post := state.post.set (start + slotIdx) slot
        usedNewIndices := state.usedNewIndices.set place true
        preservedPositions := state.preservedPositions.set slotIdx true } := by
  have length := kept.length
  have fresh := kept.later slotIdx (Nat.le_refl _) inside
  have more := flagged_set state.preservedPositions slotIdx fresh
  have written : (state.post.set (start + slotIdx) slot)[start + slotIdx]? = some slot :=
    getElem?_set_self (by omega)
  have untouched (i : Nat) (member : i ∈ flagged state.preservedPositions) :
      (state.post.set (start + slotIdx) slot)[start + i]? = state.post[start + i]? := by
    apply getElem?_set_ne
    intro equal
    have here : i = slotIdx := by omega
    rw [mem_flagged, here, fresh] at member
    cases member
  refine ⟨?_, ?_, ?_, ?_, (List.getElem?_eq_some_iff.mp found).1, ?_, ?_, ?_, ?_⟩
  · rw [length_set, length]
  · intro i beyond
    rw [getElem?_set_ne (by omega), kept.outside i beyond]
  · rw [length_set, kept.used]
  · rw [length_set, kept.preserved]
  · intro i after bound
    rw [getElem?_set_ne (by omega), kept.later i (by omega) bound]
  · apply (more.map _).trans
    apply Perm.trans _ ((flagged_set state.usedNewIndices place unset).map _).symm
    rw [map_cons, map_cons, written, read, map_congr_left untouched]
    exact kept.moved.cons (some slot)
  · intro i member
    rcases mem_cons.mp (more.mem_iff.mp member) with rfl | before
    · exact ⟨slot, written, found⟩
    · obtain ⟨held, placed, old⟩ := kept.same i before
      exact ⟨held, (untouched i before).trans placed, old⟩
  · intro expert
    have before := kept.counts expert
    have split := kept.count_split expert
    rw [more.countP_eq, countP_cons, count_take found, was, found, any_some]
    by_cases same : (slot.1 : Int) = expert
    · have some : 0 < (flagged (state.usedNewIndices.map not)).countP (now newLocal expert) := by
        rw [countP_pos_iff]
        refine ⟨place, ?_, ?_⟩
        · rw [mem_flagged, getElem?_map, unset]
          rfl
        · rw [now, read, any_some, decide_eq_true_eq]
          exact Int.ofNat_inj.mp same
      simp only [same, decide_true, if_true]
      omega
    · simp only [same, decide_false, if_false, Nat.add_zero, Bool.false_eq_true]
      exact before

/-- One slot of the first pass. -/
theorem step (inside : slotIdx < newLocal.length) (old_inside : slotIdx < oldLocal.length)
    (fits : start + newLocal.length ≤ post.length) :
    ∃ next, preserveSlot start oldLocal newLocal state slotIdx = some next ∧
      Kept post start oldLocal newLocal (slotIdx + 1) next := by
  have found := getElem?_eq_getElem old_inside
  generalize oldLocal[slotIdx] = old at found
  unfold preserveSlot
  rw [found, bind_some]
  simp only
  generalize flagsEq : zipWith (fun (slot : Slot) used => decide ((slot.1 : Int) = old) && !used)
    newLocal state.usedNewIndices = flags
  have flag (i : Nat) : flags[i]? = some true ↔ ∃ slot : Slot, newLocal[i]? = some slot ∧
      (slot.1 : Int) = old ∧ state.usedNewIndices[i]? = some false := by
    rw [← flagsEq, getElem?_zipWith]
    cases newLocal[i]? with
    | none => simp
    | some slot =>
      cases state.usedNewIndices[i]? with
      | none => simp
      | some used => cases used <;> simp
  by_cases some_ : true ∈ flags
  · obtain ⟨somewhere, member⟩ := mem_iff_getElem?.mp some_
    rcases argmax_spec flags with ⟨none, _⟩ | ⟨set, _⟩
    · exact absurd member (none somewhere)
    · obtain ⟨slot, read, same, unset⟩ := (flag _).mp set
      rw [if_pos some_, read]
      exact ⟨_, rfl, kept.matched slot (argmax flags) (by rw [found, same]) inside fits read unset⟩
  · rw [if_neg some_]
    refine ⟨state, rfl, kept.unmatched old found ?_⟩
    intro i slot read unset same
    exact some_ (mem_of_getElem? ((flag i).mpr ⟨slot, read, same, unset⟩))

end

end Kept

theorem flagged_none (count : Nat) : flagged (List.replicate count false) = [] := by
  unfold flagged
  rw [filter_eq_nil_iff]
  intro i member set
  rw [length_replicate, mem_range] at member
  rw [getElem?_replicate_of_lt member] at set
  contradiction

theorem kept_start (post : List Slot) (start : Nat) :
    Kept post start oldLocal newLocal 0
      ⟨post, List.replicate newLocal.length false, List.replicate newLocal.length false⟩ := by
  refine ⟨rfl, fun _ _ => rfl, length_replicate, length_replicate, Nat.zero_le _, ?_, ?_, ?_, ?_⟩
  · intro i _ inside
    exact getElem?_replicate_of_lt inside
  · rw [flagged_none]
    exact Perm.refl []
  · rw [flagged_none]
    exact nofun
  · intro expert
    rw [flagged_none]
    rfl

/-- A GPU whose physical experts are the new ones, as many as can be in slots where their experts were. -/
structure Reordered (oldLocal : List Int) (newLocal postLocal : List Slot) : Prop where
  perm : postLocal.Perm newLocal
  kept : ∀ expert : Nat,
    ((List.range newLocal.length).countP fun i => was oldLocal expert i && now postLocal expert i) =
      min (oldLocal.count (expert : Int)) (newLocal.countP fun slot => slot.1 = expert)

theorem count_true (flags : List Bool) : flags.count true = (flagged flags).length := by
  rw [flagged, ← countP_eq_length_filter, count_eq_countP]
  have counted := range_countP_read flags (fun flag => flag == true)
  rw [← counted]
  apply countP_congr
  intro i member
  rw [getElem?_eq_getElem (mem_range.mp member), any_some, getD_some, beq_iff_eq]

theorem flagged_congr_length {flags flags' : List Bool} (count : Nat)
    (total : flags.length = count) (total' : flags'.length = count)
    (same : (flagged flags).length = (flagged flags').length) :
    (flagged (flags.map not)).length = (flagged (flags'.map not)).length := by
  have all := (flagged_append flags).length_eq
  have all' := (flagged_append flags').length_eq
  rw [length_append, length_range] at all all'
  omega

variable {Load : Type} (loads : Loads Load)

/-- The second pass, read off: each slot that was left gets one physical expert that was left. -/
theorem fillSlots_places {post : List Slot} {start : Nat} {state : Preserving}
    (kept : Kept post start oldLocal newLocal newLocal.length state)
    (fits : start + newLocal.length ≤ post.length) :
    ∃ final, loads.fillSlots start newLocal.length newLocal state = some final ∧
      final.length = post.length ∧
      (∀ i, i ∉ (flagged (state.preservedPositions.map not)).map (start + ·) →
        final[i]? = state.post[i]?) ∧
      ((flagged (state.preservedPositions.map not)).map fun i => final[start + i]?).Perm
        ((flagged (state.usedNewIndices.map not)).map fun i => newLocal[i]?) := by
  have length := kept.length
  have equal := flagged_congr_length newLocal.length kept.preserved kept.used (by
    have moved := kept.moved.length_eq
    rw [length_map, length_map] at moved
    exact moved)
  have slots := argsort_flagged loads.argsort (state.preservedPositions.map not) (newLocal.length + 1)
    (by rw [length_map, kept.preserved]; omega)
  have sources := argsort_flagged loads.argsort (state.usedNewIndices.map not) (newLocal.length + 1)
    (by rw [length_map, kept.used]; omega)
  unfold Loads.fillSlots
  simp only [count_true, ← equal, Nat.min_self]
  rw [← equal] at sources
  generalize (loads.argsort.run ((state.preservedPositions.map not).mapIdx fun i left =>
    if left = true then i else newLocal.length + 1)).take
      (flagged (state.preservedPositions.map not)).length = fill at slots ⊢
  generalize (loads.argsort.run ((state.usedNewIndices.map not).mapIdx fun i left =>
    if left = true then i else newLocal.length + 1)).take
      (flagged (state.preservedPositions.map not)).length = remaining at sources ⊢
  have widths : fill.length = remaining.length := by
    rw [slots.length_eq, sources.length_eq, equal]
  have distinct : fill.Nodup := slots.nodup_iff.mpr (flagged_nodup _)
  have below (i : Nat) (member : i ∈ fill) : i < newLocal.length := by
    rw [slots.mem_iff, mem_flagged] at member
    obtain ⟨bound, _⟩ := List.getElem?_eq_some_iff.mp member
    rw [length_map, kept.preserved] at bound
    exact bound
  have sourced (i : Nat) (member : i ∈ remaining) : i < newLocal.length := by
    rw [sources.mem_iff, mem_flagged] at member
    obtain ⟨bound, _⟩ := List.getElem?_eq_some_iff.mp member
    rw [length_map, kept.used] at bound
    exact bound
  obtain ⟨final, moved, count, elsewhere, read⟩ := foldlM_moves newLocal start fill remaining widths
    distinct state.post (by
      intro i member
      have := below i member
      omega) sourced
  refine ⟨final, moved, count.trans length, ?_, ?_⟩
  · intro i absent
    apply elsewhere
    rw [(slots.map (start + ·)).mem_iff]
    exact absent
  · apply (slots.symm.map _).trans
    rw [read]
    exact sources.map _

theorem segment_read {row : List Slot} {start size i : Nat} (inside : i < size) :
    ((row.drop start).take size)[i]? = row[start + i]? := by
  rw [getElem?_take_of_lt inside, getElem?_drop]

/-- Both passes over a GPU. -/
theorem fillSlots_reordered {post : List Slot} {start : Nat} {state : Preserving}
    (kept : Kept post start oldLocal newLocal newLocal.length state)
    (fits : start + newLocal.length ≤ post.length) (width : oldLocal.length ≤ newLocal.length) :
    ∃ final, loads.fillSlots start newLocal.length newLocal state = some final ∧
      final.length = post.length ∧
      (∀ i, i < start ∨ start + newLocal.length ≤ i → final[i]? = post[i]?) ∧
      Reordered oldLocal newLocal ((final.drop start).take newLocal.length) := by
  obtain ⟨final, filled, length, elsewhere, places⟩ := fillSlots_places loads kept fits
  have localLength : ((final.drop start).take newLocal.length).length = newLocal.length := by
    rw [length_take, length_drop]
    omega
  -- the slots kept by the first pass stay as they are
  have stays (i : Nat) (member : i ∈ flagged state.preservedPositions) :
      final[start + i]? = state.post[start + i]? := by
    apply elsewhere
    intro filledToo
    obtain ⟨other, unset, same⟩ := List.mem_map.mp filledToo
    have equal : other = i := by omega
    rw [mem_flagged] at member
    rw [equal, mem_flagged, getElem?_map, member] at unset
    cases unset
  have all : (range newLocal.length).Perm
      (flagged state.preservedPositions ++ flagged (state.preservedPositions.map not)) := by
    have appended := (flagged_append state.preservedPositions).symm
    rw [kept.preserved] at appended
    exact appended
  have perm : ((final.drop start).take newLocal.length).Perm newLocal := by
    apply (map_perm_map_iff fun _ _ => some.inj).mp
    rw [← range_map_read, localLength, map_congr_left fun i member =>
      segment_read (mem_range.mp member)]
    apply (all.map _).trans
    rw [map_append, map_congr_left stays]
    apply (kept.moved.append places).trans
    rw [← map_append]
    apply ((flagged_append state.usedNewIndices).map _).trans
    rw [kept.used, range_map_read]
  refine ⟨final, filled, length, ?_, perm, ?_⟩
  · intro i beyond
    rw [elsewhere, kept.outside i beyond]
    intro member
    obtain ⟨slot, unset, rfl⟩ := List.mem_map.mp member
    rw [mem_flagged] at unset
    obtain ⟨bound, _⟩ := List.getElem?_eq_some_iff.mp unset
    rw [length_map, kept.preserved] at bound
    omega
  · intro expert
    have visited := kept.visited
    have wasCount : (range newLocal.length).countP (was oldLocal expert) =
        oldLocal.count (expert : Int) := by
      rw [← Nat.le_antisymm width visited]
      exact range_countP_read oldLocal _
    have nowCount : (range newLocal.length).countP
        (now ((final.drop start).take newLocal.length) expert) =
          newLocal.countP fun slot => slot.1 = expert := by
      have counted := range_countP_read ((final.drop start).take newLocal.length)
        fun slot => slot.1 = expert
      rw [localLength] at counted
      rw [← perm.countP_eq]
      exact counted
    have firstPass := kept.counts expert
    rw [take_of_length_le width] at firstPass
    apply Nat.le_antisymm
    · apply Nat.le_min.mpr
      constructor
      · rw [← wasCount]
        apply countP_mono_left
        intro i _ both
        exact (Bool.and_eq_true_iff.mp both).1
      · rw [← nowCount]
        apply countP_mono_left
        intro i _ both
        exact (Bool.and_eq_true_iff.mp both).2
    · rw [← firstPass, all.countP_eq, countP_append]
      apply Nat.le_trans _ (Nat.le_add_right _ _)
      apply countP_mono_left
      intro i member before
      obtain ⟨slot, placed, old⟩ := kept.same i member
      have inside : i < newLocal.length := by
        rw [mem_flagged] at member
        obtain ⟨bound, _⟩ := List.getElem?_eq_some_iff.mp member
        rw [kept.preserved] at bound
        exact bound
      rw [was, old, any_some, decide_eq_true_eq, Int.ofNat_inj] at before
      rw [Bool.and_eq_true, was, now, segment_read inside, stays i member,
        placed, old, any_some, any_some, decide_eq_true_eq, decide_eq_true_eq, before]
      exact ⟨rfl, rfl⟩

/-- The part of a list that belongs to a GPU. -/
def segment {Value : Type} (row : List Value) (size gpuIdx : Nat) : List Value :=
  (row.drop (gpuIdx * size)).take size

theorem segment_end (size gpuIdx gpus : Nat) (inside : gpuIdx < gpus) :
    gpuIdx * size + size ≤ gpus * size := by
  rw [← Nat.succ_mul]
  exact Nat.mul_le_mul_right size inside

theorem segment_length {Value : Type} {row : List Value} {size gpuIdx : Nat}
    (fits : gpuIdx * size + size ≤ row.length) : (segment row size gpuIdx).length = size := by
  rw [segment, length_take, length_drop]
  omega

theorem preserveGpu_spec {slots post : List Slot} {size gpuIdx : Nat} {oldPhy2log : List Int}
    (fits : gpuIdx * size + size ≤ slots.length) (oldFits : slots.length ≤ oldPhy2log.length)
    (length : post.length = slots.length) :
    ∃ final, loads.preserveGpu slots size oldPhy2log post gpuIdx = some final ∧
      final.length = slots.length ∧
      (∀ i, i < gpuIdx * size ∨ gpuIdx * size + size ≤ i → final[i]? = post[i]?) ∧
      Reordered (segment oldPhy2log size gpuIdx) (segment slots size gpuIdx)
        (segment final size gpuIdx) := by
  have width := segment_length fits
  have oldWidth := segment_length (Nat.le_trans fits oldFits)
  have start := @kept_start (segment oldPhy2log size gpuIdx) (segment slots size gpuIdx) post
    (gpuIdx * size)
  rw [width] at start
  obtain ⟨state, first, kept⟩ := foldlM_range
    (Kept post (gpuIdx * size) (segment oldPhy2log size gpuIdx) (segment slots size gpuIdx)) size start
    (by
      intro i inside state holds
      exact holds.step (by omega) (by omega) (by omega))
  have spec := @fillSlots_reordered (segment oldPhy2log size gpuIdx) (segment slots size gpuIdx) _ loads
  rw [width] at spec
  obtain ⟨final, second, total, outside, reordered⟩ := spec kept (by omega) (by omega)
  refine ⟨final, ?_, total.trans length, outside, reordered⟩
  exact bind_eq_some_iff.mpr ⟨state, first, second⟩

theorem segment_congr {Value : Type} {row row' : List Value} {size gpuIdx : Nat}
    (same : ∀ i, gpuIdx * size ≤ i → i < gpuIdx * size + size → row[i]? = row'[i]?) :
    segment row size gpuIdx = segment row' size gpuIdx := by
  apply ext_getElem?
  intro i
  unfold segment
  rw [getElem?_take, getElem?_take]
  by_cases inside : i < size
  · rw [if_pos inside, if_pos inside, getElem?_drop, getElem?_drop]
    exact same _ (by omega) (by omega)
  · rw [if_neg inside, if_neg inside]

/-- Every rank keeps its physical experts, and as many as possible of them in slots where their experts
were. -/
theorem preserveIntragpuSlots_spec (slots : List Slot) (numRanks : Nat) (oldPhy2log : List Int)
    (positive : 0 < numRanks) (divides : slots.length % numRanks = 0)
    (oldFits : slots.length ≤ oldPhy2log.length) :
    ∃ post, loads.preserveIntragpuSlots slots numRanks oldPhy2log = some post ∧
      post.length = slots.length ∧ ∀ rank < numRanks,
        Reordered (segment oldPhy2log (slots.length / numRanks) rank)
          (segment slots (slots.length / numRanks) rank)
          (segment post (slots.length / numRanks) rank) := by
  have total := Nat.div_add_mod slots.length numRanks
  rw [divides] at total
  generalize sizeEq : slots.length / numRanks = size at total
  unfold Loads.preserveIntragpuSlots
  rw [if_neg (by omega)]
  simp only [sizeEq]
  apply foldlM_range (fun done (state : List Slot) => state.length = slots.length ∧ ∀ rank < done,
    Reordered (segment oldPhy2log size rank) (segment slots size rank) (segment state size rank))
    numRanks ⟨rfl, nofun⟩
  intro gpuIdx inside state holds
  have fits := segment_end size gpuIdx numRanks inside
  obtain ⟨next, stepped, length, outside, reordered⟩ := preserveGpu_spec loads (by rw [← total]; exact fits) oldFits holds.1
  refine ⟨next, stepped, length, ?_⟩
  intro rank below
  by_cases same : rank = gpuIdx
  · rw [same]
    exact reordered
  · have before := segment_end size rank gpuIdx (by omega)
    rw [segment_congr fun i _ _ => outside i (by omega)]
    exact holds.2 rank (by omega)

end VllmDcu.SlotPreserving

import Mathlib.Data.List.Nodup
import VllmDcu.BalancedPacking

/-! Replicas of experts: every expert has as many as it counts, each of them in one slot. This holds
from the first replica on, through every renumbering of slots and of experts. -/
namespace VllmDcu.ExpertReplicas
open TensorRows IndexPermutations ExpertBalance BalancedPacking List Option

/-- The slots hold the replicas of each expert from 0 up to its count, each one once. -/
structure Replicated (slots : List Slot) (counts : List Nat) : Prop where
  nodup : slots.Nodup
  mem_iff : ∀ expert replica, (expert, replica) ∈ slots ↔
    ∃ count, counts[expert]? = some count ∧ replica < count
  positive : ∀ count ∈ counts, 1 ≤ count

namespace Replicated
variable {slots slots' : List Slot} {counts counts' : List Nat}

section
variable (replicated : Replicated slots counts)
include replicated

theorem perm (permuted : slots'.Perm slots) : Replicated slots' counts := by
  constructor
  · exact permuted.nodup_iff.mpr replicated.nodup
  · intro expert replica
    rw [permuted.mem_iff]
    exact replicated.mem_iff expert replica
  · exact replicated.positive

theorem expert_lt {slot : Slot} (member : slot ∈ slots) : slot.1 < counts.length := by
  obtain ⟨_, counted, _⟩ := (replicated.mem_iff slot.1 slot.2).mp member
  exact (List.getElem?_eq_some_iff.mp counted).1

/-- One replica more of one expert. -/
theorem add (expert count : Nat) (counted : counts[expert]? = some count) :
    Replicated ((expert, count) :: slots) (counts.set expert (count + 1)) := by
  obtain ⟨bound, _⟩ := List.getElem?_eq_some_iff.mp counted
  constructor
  · refine nodup_cons.mpr ⟨?_, replicated.nodup⟩
    intro member
    obtain ⟨other, counted', below⟩ := (replicated.mem_iff expert count).mp member
    rw [counted] at counted'
    cases counted'
    exact Nat.lt_irrefl _ below
  · intro other replica
    rw [mem_cons, replicated.mem_iff]
    by_cases same : other = expert
    · subst same
      rw [getElem?_set_self bound, counted]
      constructor
      · rintro (equal | ⟨_, equal, below⟩)
        · cases equal
          exact ⟨count + 1, rfl, Nat.lt_succ_self count⟩
        · cases equal
          exact ⟨count + 1, rfl, Nat.lt_succ_of_lt below⟩
      · rintro ⟨_, equal, below⟩
        cases equal
        rcases Nat.lt_succ_iff_lt_or_eq.mp below with earlier | rfl
        · exact Or.inr ⟨count, rfl, earlier⟩
        · exact Or.inl rfl
    · rw [getElem?_set_ne (Ne.symm same)]
      constructor
      · rintro (equal | found)
        · cases equal
          exact absurd rfl same
        · exact found
      · exact Or.inr
  · intro value member
    rcases mem_or_eq_of_mem_set member with kept | rfl
    · exact replicated.positive value kept
    · exact Nat.le_add_left 1 count

/-- Two parts, the experts of the second one numbered after those of the first. -/
theorem append (replicated' : Replicated slots' counts') :
    Replicated (slots ++ slots'.map fun slot => (slot.1 + counts.length, slot.2)) (counts ++ counts') := by
  have shifted (expert replica : Nat) :
      (expert, replica) ∈ slots'.map (fun slot => (slot.1 + counts.length, slot.2)) ↔
        counts.length ≤ expert ∧ (expert - counts.length, replica) ∈ slots' := by
    rw [List.mem_map]
    constructor
    · rintro ⟨slot, member, equal⟩
      cases equal
      rw [Nat.add_sub_cancel]
      exact ⟨Nat.le_add_left _ _, member⟩
    · rintro ⟨after, member⟩
      exact ⟨_, member, by rw [Nat.sub_add_cancel after]⟩
  constructor
  · refine nodup_append.mpr ⟨replicated.nodup, ?_, ?_⟩
    · apply replicated'.nodup.map
      intro first second equal
      rw [Prod.mk.injEq, Nat.add_right_cancel_iff] at equal
      exact Prod.ext equal.1 equal.2
    · intro first member second memberShifted equal
      subst equal
      have before := replicated.expert_lt member
      have after := ((shifted first.1 first.2).mp memberShifted).1
      omega
  · intro expert replica
    rw [mem_append, shifted, replicated.mem_iff, replicated'.mem_iff]
    by_cases before : expert < counts.length
    · rw [getElem?_append_left before]
      exact ⟨fun either => either.resolve_right fun later => absurd later.1 (by omega), Or.inl⟩
    · rw [getElem?_append_right (by omega), getElem?_eq_none (by omega : counts.length ≤ expert)]
      constructor
      · rintro (⟨_, none, _⟩ | ⟨_, found⟩)
        · cases none
        · exact found
      · exact fun found => Or.inr ⟨by omega, found⟩
  · intro value member
    rcases mem_append.mp member with first | second
    · exact replicated.positive value first
    · exact replicated'.positive value second

/-- Experts under other numbers. -/
theorem rename (forward back : List Nat)
    (inverted : ∀ expert renamed : Nat, forward[expert]? = some renamed ↔ back[renamed]? = some expert)
    (renamedSlots : List Slot) (renamedCounts : List Nat)
    (lengths : renamedSlots.length = slots.length)
    (slots_eq : ∀ (place : Nat) slot, slots[place]? = some slot → ∃ expert,
      back[slot.1]? = some expert ∧ renamedSlots[place]? = some (expert, slot.2))
    (counts_eq : ∀ (expert renamed : Nat), forward[expert]? = some renamed →
      renamedCounts[expert]? = counts[renamed]?)
    (counts_length : ∀ expert < renamedCounts.length, ∃ renamed, forward[expert]? = some renamed) :
    Replicated renamedSlots renamedCounts := by
  have back_slot (place : Nat) (slot : Slot) (found : renamedSlots[place]? = some slot) :
      ∃ renamed, slots[place]? = some (renamed, slot.2) ∧ back[renamed]? = some slot.1 := by
    obtain ⟨bound, _⟩ := List.getElem?_eq_some_iff.mp found
    have there := getElem?_eq_getElem (lengths ▸ bound)
    obtain ⟨expert, named, placed⟩ := slots_eq place _ there
    rw [found] at placed
    cases placed
    exact ⟨_, there, named⟩
  constructor
  · rw [nodup_iff_pairwise_ne, pairwise_iff_getElem]
    intro first second firstBound secondBound before same
    obtain ⟨renamed, there, named⟩ := back_slot first _ (getElem?_eq_getElem firstBound)
    obtain ⟨renamed', there', named'⟩ := back_slot second _ (getElem?_eq_getElem secondBound)
    rw [← same] at named' there'
    have equal := some.inj (((inverted _ _).mpr named).symm.trans ((inverted _ _).mpr named'))
    subst equal
    have := (getElem?_inj (List.getElem?_eq_some_iff.mp there).1 replicated.nodup).mp
      (there.trans there'.symm)
    omega
  · intro expert replica
    constructor
    · intro member
      obtain ⟨place, found⟩ := mem_iff_getElem?.mp member
      obtain ⟨renamed, there, named⟩ := back_slot place _ found
      obtain ⟨count, counted, below⟩ := (replicated.mem_iff renamed replica).mp (mem_of_getElem? there)
      exact ⟨count, (counts_eq _ _ ((inverted _ _).mpr named)).trans counted, below⟩
    · rintro ⟨count, counted, below⟩
      obtain ⟨renamed, named⟩ := counts_length expert (List.getElem?_eq_some_iff.mp counted).1
      rw [counts_eq expert renamed named] at counted
      have member := (replicated.mem_iff renamed replica).mpr ⟨count, counted, below⟩
      obtain ⟨place, there⟩ := mem_iff_getElem?.mp member
      obtain ⟨expert', named', placed⟩ := slots_eq place _ there
      rw [(inverted _ _).mp named] at named'
      cases named'
      exact mem_of_getElem? placed
  · intro count member
    obtain ⟨expert, found⟩ := mem_iff_getElem?.mp member
    obtain ⟨renamed, named⟩ := counts_length expert (List.getElem?_eq_some_iff.mp found).1
    rw [counts_eq expert renamed named] at found
    exact replicated.positive count (mem_of_getElem? found)

end

end Replicated

variable {Load : Type} (loads : Loads Load)

/-! The replicas of a node. -/

variable (weight : List Load)

theorem replicate_spec (slots : List Slot) (counts : List Nat) (i : Nat)
    (nonempty : 0 < weight.length) (width : counts.length = weight.length)
    (inside : i < slots.length) (replicated : Replicated (slots.take i) counts) :
    ∃ next, loads.replicate weight (slots, counts) i = some next ∧ next.1.length = slots.length ∧
      next.2.length = weight.length ∧ Replicated (next.1.take (i + 1)) next.2 := by
  have length : (zipWith loads.divide weight counts).length = weight.length := by
    rw [length_zipWith, width, Nat.min_self]
  obtain ⟨expert, _, most, read, _⟩ := @argmin_spec _ (fun a b => loads.lt b a) (fun _ => True)
    (fun _ _ _ => trivial) (fun _ _ _ beyond => absurd trivial beyond)
    (zipWith loads.divide weight counts) (by omega)
  obtain ⟨bound, _⟩ := List.getElem?_eq_some_iff.mp read
  obtain ⟨count, counted⟩ : ∃ count, counts[expert]? = some count :=
    ⟨_, getElem?_eq_getElem (by omega)⟩
  unfold Loads.replicate
  rw [most, bind_some, counted]
  refine ⟨_, rfl, length_set, length_set.trans width, ?_⟩
  have taken : (slots.set i (expert, count)).take (i + 1) = slots.take i ++ [(expert, count)] := by
    rw [take_add_one, getElem?_set_self inside, take_set_of_le (Nat.le_refl i)]
    rfl
  rw [taken]
  exact (replicated.add expert count counted).perm (perm_append_singleton _ _)

theorem replicate_run (steps : Nat) (slots : List Slot) (counts : List Nat) (i : Nat)
    (nonempty : 0 < weight.length) (width : counts.length = weight.length)
    (enough : i + steps = slots.length) (replicated : Replicated (slots.take i) counts) :
    ∃ final, (List.range' i steps).foldlM (loads.replicate weight) (slots, counts) = some final ∧
      final.1.length = slots.length ∧ final.2.length = weight.length ∧ Replicated final.1 final.2 := by
  induction steps generalizing slots counts i with
  | zero =>
    rw [take_of_length_le (by omega)] at replicated
    exact ⟨_, rfl, rfl, width, replicated⟩
  | succ steps ih =>
    obtain ⟨⟨slots', counts'⟩, made, length, width', replicated'⟩ :=
      replicate_spec loads weight slots counts i nonempty width (by omega) replicated
    simp only at length width' replicated'
    obtain ⟨final, ran, lengths⟩ := ih slots' counts' (i + 1) width' (by omega) replicated'
    refine ⟨final, ?_, length ▸ lengths⟩
    rw [range'_succ, foldlM_cons, made]
    exact ran

/-- Every expert has its first replica, and the other slots are given to one expert or another. -/
theorem replicateExperts_spec (numPhy : Nat) (nonempty : 0 < weight.length)
    (enough : weight.length ≤ numPhy) :
    ∃ slots counts, loads.replicateExperts weight numPhy = some (slots, counts) ∧
      slots.length = numPhy ∧ counts.length = weight.length ∧ Replicated slots counts := by
  have length : ((range numPhy).map fun expert => ((expert, 0) : Slot)).length = numPhy := by
    rw [length_map, length_range]
  have first : ((range numPhy).map fun expert => ((expert, 0) : Slot)).take weight.length =
      (range weight.length).map fun expert => (expert, 0) := by
    rw [← map_take, take_range, Nat.min_eq_left enough]
  obtain ⟨⟨slots, counts⟩, ran, slotCount, width, replicated⟩ := replicate_run loads weight
    (numPhy - weight.length) ((range numPhy).map fun expert => (expert, 0))
    (replicate weight.length 1) weight.length nonempty length_replicate (by omega) (by
      rw [first]
      constructor
      · apply nodup_range.map
        intro a b equal
        exact (Prod.mk.inj equal).1
      · intro expert replica
        rw [List.mem_map]
        constructor
        · rintro ⟨_, member, equal⟩
          cases equal
          refine ⟨1, ?_, Nat.one_pos⟩
          rw [getElem?_replicate, if_pos (mem_range.mp member)]
        · rintro ⟨count, counted, below⟩
          obtain ⟨bound, _⟩ := List.getElem?_eq_some_iff.mp counted
          rw [length_replicate] at bound
          rw [getElem?_replicate, if_pos bound] at counted
          cases counted
          exact ⟨expert, mem_range.mpr bound, by rw [Nat.lt_one_iff.mp below]⟩
      · intro count member
        exact Nat.le_of_eq (eq_of_mem_replicate member).symm)
  unfold Loads.replicateExperts
  rw [if_neg (by omega)]
  exact ⟨slots, counts, ran, slotCount.trans length, width, replicated⟩

/-- Packing to the GPUs only reorders the slots of the node. -/
theorem packNode_spec {tokens : List Load} {slots : List Slot} {counts : List Nat}
    {gpus phyExpertsPerGpu : Nat} (positive : 0 < gpus) (width : counts.length = tokens.length)
    (length : slots.length = gpus * phyExpertsPerGpu) (replicated : Replicated slots counts) :
    ∃ packed, loads.packNode tokens (slots, counts) gpus phyExpertsPerGpu = some packed ∧
      packed.Perm slots := by
  obtain ⟨tokensPerPhy, gathered, phyLength, _⟩ := gather_total
    (zipWith loads.divide tokens counts) (slots.map Prod.fst) (by
      intro expert member
      obtain ⟨slot, found, rfl⟩ := List.mem_map.mp member
      have := replicated.expert_lt found
      rw [length_zipWith]
      omega)
  rw [length_map, length] at phyLength
  obtain ⟨packIndex, rankInPack, packed, indexLength, rankLength, perm⟩ := balancedPacking_spec positive (by rw [phyLength, Nat.mul_mod_right])
  rw [phyLength, Nat.mul_div_cancel_left _ positive] at perm
  generalize coded : zipWith (fun pack rank => pack * phyExpertsPerGpu + rank) packIndex
    rankInPack = phy2pphy at perm
  have codes : phy2pphy.length = slots.length := by
    rw [perm.length_eq, length_range, length]
  obtain ⟨pphy2phy, inverted, invPerm, _⟩ := inverse_spec (by
    rw [codes, length]
    exact perm)
  obtain ⟨values, read, valuePerm, _⟩ := gather_perm slots (codes ▸ invPerm)
  refine ⟨values, ?_, valuePerm⟩
  unfold Loads.packNode
  simp only
  rw [gathered, bind_some, packed, bind_some]
  rw [coded, inverted, bind_some, read]

end VllmDcu.ExpertReplicas

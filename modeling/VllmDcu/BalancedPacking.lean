import Mathlib.Algebra.GroupWithZero.Nat
import Mathlib.Algebra.BigOperators.Group.List.Basic
import VllmDcu.ExpertBalance

/-! Packs of equal size: as long as a pack has room, the lightest one that is not full has. -/
namespace VllmDcu.BalancedPacking
open TensorRows IndexPermutations ExpertBalance List Option

/-! `argmin`. -/

section Argmin
variable {Value : Type} {lt : Value → Value → Bool} {Finite : Value → Prop}
  (less : ∀ a b, lt a b = true → Finite a) (beyond : ∀ a b, Finite a → ¬ Finite b → lt a b = true)
include less beyond

/-- What is left to see is finite, or the best so far is: the end is a finite value. -/
theorem argminFrom_spec (seen rest : List Value) (best : Value) (place : Nat)
    (found : seen[place]? = some best) :
    ∃ value, (seen ++ rest)[argminFrom lt best place seen.length rest]? = some value ∧
      ((Finite best ∨ ∃ other ∈ rest, Finite other) → Finite value) := by
  induction rest generalizing seen best place with
  | nil =>
    refine ⟨best, ?_, ?_⟩
    · rw [append_nil]
      exact found
    · intro either
      rcases either with finite | ⟨_, member, _⟩
      · exact finite
      · contradiction
  | cons next rest ih =>
    have split : seen ++ next :: rest = (seen ++ [next]) ++ rest := by
      rw [append_assoc, singleton_append]
    have length : (seen ++ [next]).length = seen.length + 1 := by
      rw [length_append, length_singleton]
    rw [split, argminFrom, ← length]
    by_cases smaller : lt next best = true
    · rw [if_pos smaller]
      obtain ⟨value, read, finite⟩ := ih (seen ++ [next]) next seen.length (by simp)
      exact ⟨value, read, fun _ => finite (Or.inl (less next best smaller))⟩
    · rw [if_neg smaller]
      obtain ⟨bound, _⟩ := List.getElem?_eq_some_iff.mp found
      obtain ⟨value, read, finite⟩ := ih (seen ++ [next]) best place (by
        rw [getElem?_append_left bound, found])
      refine ⟨value, read, fun either => ?_⟩
      rcases either with own | ⟨other, member, own⟩
      · exact finite (Or.inl own)
      · cases member with
        | head =>
          by_cases already : Finite best
          · exact finite (Or.inl already)
          · exact absurd (beyond next best own already) smaller
        | tail _ member => exact finite (Or.inr ⟨other, member, own⟩)

theorem argmin_spec (values : List Value) (nonempty : 0 < values.length) :
    ∃ place value, argmin lt values = some place ∧ values[place]? = some value ∧
      ((∃ other ∈ values, Finite other) → Finite value) := by
  cases values with
  | nil => contradiction
  | cons first rest =>
    obtain ⟨value, read, finite⟩ := argminFrom_spec less beyond [first] rest first 0 rfl
    refine ⟨_, value, rfl, read, ?_⟩
    rintro ⟨other, member, own⟩
    cases member with
    | head => exact finite (Or.inl own)
    | tail _ member => exact finite (Or.inr ⟨other, member, own⟩)

end Argmin

/-! Packing one group. -/

theorem sum_set_succ (items : List Nat) (place count : Nat) (found : items[place]? = some count) :
    (items.set place (count + 1)).sum = items.sum + 1 := by
  induction items generalizing place with
  | nil => contradiction
  | cons item items ih =>
    cases place with
    | zero =>
      cases found
      rw [set_cons_zero, sum_cons, sum_cons]
      omega
    | succ place =>
      rw [set_cons_succ, sum_cons, sum_cons, ih place found]
      omega

variable {Load : Type}

/-- After the groups in `done`: what the packs hold, and no two groups at one place. -/
structure Packed (numPacks groupsPerPack numGroups : Nat) (done : List Nat)
    (packing : Loads.Packing Load) : Prop where
  weights : packing.packWeights.length = numPacks
  items : packing.packItems.length = numPacks
  most : ∀ (pack : Nat) count, packing.packItems[pack]? = some count → count ≤ groupsPerPack
  full_iff : ∀ (pack : Nat) count, packing.packItems[pack]? = some count →
    (packing.packWeights[pack]? = some none ↔ count = groupsPerPack)
  total : packing.packItems.sum = done.length
  indices : packing.packIndex.length = numGroups
  ranks : packing.rankInPack.length = numGroups
  assigned : ∀ group ∈ done, ∃ pack rank count, packing.packIndex[group]? = some (some pack) ∧
    packing.rankInPack[group]? = some (some rank) ∧ packing.packItems[pack]? = some count ∧ rank < count
  distinct : ∀ first ∈ done, ∀ second ∈ done,
    packing.packIndex[first]? = packing.packIndex[second]? →
      packing.rankInPack[first]? = packing.rankInPack[second]? → first = second

section Pack
variable (loads : Loads Load) (weight : List Load) {numPacks groupsPerPack : Nat} {done : List Nat}
  {packing : Loads.Packing Load}

/-- While groups are left, the lightest pack has room. -/
theorem Packed.lightest (packed : Packed numPacks groupsPerPack weight.length done packing)
    (room : done.length < numPacks * groupsPerPack) :
    ∃ pack packWeight count, argmin loads.ltInf packing.packWeights = some pack ∧
      packing.packWeights[pack]? = some (some packWeight) ∧
      packing.packItems[pack]? = some count ∧ count < groupsPerPack := by
  have open_ : ∃ count ∈ packing.packItems, count ≠ groupsPerPack := by
    by_contra every
    have all : ∀ count ∈ packing.packItems, count = groupsPerPack := by
      intro count member
      by_contra other
      exact every ⟨count, member, other⟩
    have replicated := eq_replicate_of_mem all
    have total := packed.total
    rw [replicated, sum_replicate_nat, packed.items] at total
    omega
  obtain ⟨count, member, other⟩ := open_
  obtain ⟨pack, there⟩ := mem_iff_getElem?.mp member
  obtain ⟨inside, _⟩ := List.getElem?_eq_some_iff.mp there
  have weights := packed.weights
  have items := packed.items
  have finite : packing.packWeights[pack] ≠ none := by
    intro full
    apply other
    apply (packed.full_iff pack count there).mp
    rw [getElem?_eq_getElem (by omega), full]
  obtain ⟨place, value, least, read, isFinite⟩ := @argmin_spec _ loads.ltInf (fun value => value ≠ none) (by
      intro a b smaller
      cases a with
      | none => contradiction
      | some a => exact some_ne_none a) (by
      intro a b some_ inf
      cases a with
      | none => contradiction
      | some a =>
        cases b with
        | none => rfl
        | some b => exact absurd (some_ne_none b) inf) packing.packWeights (by omega)
  obtain ⟨packWeight, rfl⟩ := ne_none_iff_exists'.mp (isFinite ⟨_, getElem_mem (by omega), finite⟩)
  obtain ⟨bound, _⟩ := List.getElem?_eq_some_iff.mp read
  obtain ⟨own, counted⟩ : ∃ own, packing.packItems[place]? = some own :=
    ⟨_, getElem?_eq_getElem (by omega)⟩
  refine ⟨place, packWeight, own, least, read, counted, ?_⟩
  apply Nat.lt_of_le_of_ne (packed.most place own counted)
  intro full
  have inf := (packed.full_iff place own counted).mpr full
  rw [read] at inf
  cases inf

/-- One group more. -/
theorem Packed.packGroup (packed : Packed numPacks groupsPerPack weight.length done packing)
    (room : done.length < numPacks * groupsPerPack) (group : Nat) (inside : group < weight.length)
    (fresh : group ∉ done) :
    ∃ next, loads.packGroup weight groupsPerPack packing group = some next ∧
      Packed numPacks groupsPerPack weight.length (group :: done) next := by
  obtain ⟨pack, packWeight, count, least, read, counted, less⟩ := packed.lightest loads weight room
  obtain ⟨weightBound, _⟩ := List.getElem?_eq_some_iff.mp read
  obtain ⟨itemBound, _⟩ := List.getElem?_eq_some_iff.mp counted
  have others (place : Nat) (other : group ≠ place) :
      (packing.packIndex.set group (some pack))[place]? = packing.packIndex[place]? ∧
        (packing.rankInPack.set group (some count))[place]? = packing.rankInPack[place]? :=
    ⟨getElem?_set_ne other, getElem?_set_ne other⟩
  have own : (packing.packIndex.set group (some pack))[group]? = some (some pack) ∧
      (packing.rankInPack.set group (some count))[group]? = some (some count) :=
    ⟨getElem?_set_self (by rw [packed.indices]; exact inside),
      getElem?_set_self (by rw [packed.ranks]; exact inside)⟩
  -- a group packed earlier has a lower rank in this pack
  have earlier (other : Nat) (member : other ∈ done) : group ≠ other ∧
      (packing.packIndex[other]? = some (some pack) →
        packing.rankInPack[other]? ≠ some (some count)) := by
    refine ⟨fun same => fresh (same ▸ member), ?_⟩
    intro index rank
    obtain ⟨_, _, _, index', rank', counted', below⟩ := packed.assigned other member
    rw [index] at index'
    rw [rank] at rank'
    cases index'
    cases rank'
    rw [counted] at counted'
    cases counted'
    exact Nat.lt_irrefl _ below
  unfold Loads.packGroup
  rw [least, bind_some, counted, read, getElem?_eq_getElem inside]
  refine ⟨_, rfl, ?_⟩
  constructor
  · split
    · rw [length_set, length_set, packed.weights]
    · rw [length_set, packed.weights]
  · rw [length_set, packed.items]
  · intro place value there
    by_cases same : pack = place
    · subst same
      rw [getElem?_set_self itemBound] at there
      cases there
      exact less
    · rw [getElem?_set_ne same] at there
      exact packed.most place value there
  · intro place value there
    simp only at there ⊢
    by_cases same : pack = place
    · subst same
      rw [getElem?_set_self itemBound] at there
      cases there
      by_cases full : count + 1 = groupsPerPack
      · rw [if_pos full, getElem?_set_self (by rw [length_set]; exact weightBound)]
        exact ⟨fun _ => full, fun _ => rfl⟩
      · rw [if_neg full, getElem?_set_self weightBound]
        exact ⟨nofun, fun now => absurd now full⟩
    · rw [getElem?_set_ne same] at there
      have kept := packed.full_iff place value there
      split
      · rw [getElem?_set_ne same, getElem?_set_ne same]
        exact kept
      · rw [getElem?_set_ne same]
        exact kept
  · rw [sum_set_succ _ pack count counted, packed.total, length_cons]
  · rw [length_set, packed.indices]
  · rw [length_set, packed.ranks]
  · intro other member
    cases member with
    | head => exact ⟨pack, count, count + 1, own.1, own.2, getElem?_set_self itemBound, by omega⟩
    | tail _ member =>
      obtain ⟨index, rank, value, atIndex, atRank, there, below⟩ := packed.assigned other member
      obtain ⟨apart, _⟩ := earlier other member
      by_cases same : pack = index
      · subst same
        rw [counted] at there
        cases there
        exact ⟨pack, rank, count + 1, (others other apart).1.trans atIndex,
          (others other apart).2.trans atRank, getElem?_set_self itemBound, by omega⟩
      · exact ⟨index, rank, value, (others other apart).1.trans atIndex,
          (others other apart).2.trans atRank, (getElem?_set_ne same).trans there, below⟩
  · intro first firstMember second secondMember index rank
    cases firstMember with
    | head =>
      cases secondMember with
      | head => rfl
      | tail _ member =>
        obtain ⟨apart, differ⟩ := earlier second member
        rw [own.1, (others second apart).1] at index
        rw [own.2, (others second apart).2] at rank
        exact absurd rank.symm (differ index.symm)
    | tail _ firstMember =>
      obtain ⟨apart, differ⟩ := earlier first firstMember
      rw [(others first apart).1] at index
      rw [(others first apart).2] at rank
      cases secondMember with
      | head =>
        rw [own.1] at index
        rw [own.2] at rank
        exact absurd rank (differ index)
      | tail _ member =>
        obtain ⟨apart', _⟩ := earlier second member
        rw [(others second apart').1] at index
        rw [(others second apart').2] at rank
        exact packed.distinct first firstMember second member index rank

/-- The groups one after another. -/
theorem Packed.run (order : List Nat) (packed : Packed numPacks groupsPerPack weight.length done packing)
    (enough : done.length + order.length ≤ numPacks * groupsPerPack)
    (inside : ∀ group ∈ order, group < weight.length) (distinct : (done ++ order).Nodup) :
    ∃ final, order.foldlM (loads.packGroup weight groupsPerPack) packing = some final ∧
      Packed numPacks groupsPerPack weight.length (order.reverse ++ done) final := by
  induction order generalizing done packing with
  | nil => exact ⟨packing, rfl, packed⟩
  | cons group order ih =>
    rw [length_cons] at enough
    have fresh : group ∉ done := by
      intro member
      exact (nodup_append.mp distinct).2.2 group member group mem_cons_self rfl
    obtain ⟨next, made, packedNext⟩ := packed.packGroup loads weight (by omega) group
      (inside group mem_cons_self) fresh
    obtain ⟨final, ran, packedFinal⟩ := ih packedNext (by rw [length_cons]; omega)
      (fun other member => inside other (mem_cons_of_mem group member)) (by
        rw [cons_append, ← perm_middle.nodup_iff]
        exact distinct)
    refine ⟨final, ?_, ?_⟩
    · rw [foldlM_cons, made]
      exact ran
    · rw [reverse_cons, append_assoc]
      exact packedFinal

end Pack

theorem Packed.init (numPacks groupsPerPack numGroups : Nat) (zero : Load) (room : groupsPerPack ≠ 0) :
    Packed numPacks groupsPerPack numGroups []
      { packWeights := List.replicate numPacks (some zero), packItems := List.replicate numPacks 0,
        packIndex := List.replicate numGroups none, rankInPack := List.replicate numGroups none } := by
  have empty (pack count : Nat) (found : (replicate numPacks 0)[pack]? = some count) :
      count = 0 ∧ pack < numPacks := by
    obtain ⟨bound, _⟩ := List.getElem?_eq_some_iff.mp found
    rw [length_replicate] at bound
    rw [getElem?_replicate, if_pos bound] at found
    cases found
    exact ⟨rfl, bound⟩
  constructor
  · exact length_replicate
  · exact length_replicate
  · intro pack count found
    have := (empty pack count found).1
    omega
  · intro pack count found
    obtain ⟨none, bound⟩ := empty pack count found
    rw [getElem?_replicate, if_pos bound]
    constructor
    · intro same
      cases same
    · omega
  · rw [sum_replicate_nat, Nat.mul_zero, length_nil]
  · exact length_replicate
  · exact length_replicate
  · exact nofun
  · exact nofun

/-- Every group has its own place: pack by pack, and rank by rank in a pack. -/
theorem Packed.places {numPacks groupsPerPack numGroups : Nat} {done : List Nat}
    {packing : Loads.Packing Load} (packed : Packed numPacks groupsPerPack numGroups done packing)
    (product : numPacks * groupsPerPack = numGroups) (complete : ∀ group < numGroups, group ∈ done) :
    ∃ packIndex rankInPack, packing.packIndex.mapM id = some packIndex ∧
      packing.rankInPack.mapM id = some rankInPack ∧
      packIndex.length = numGroups ∧ rankInPack.length = numGroups ∧
      (List.zipWith (fun pack rank => pack * groupsPerPack + rank) packIndex rankInPack).Perm
        (List.range numGroups) := by
  subst product
  have stored (values : List (Option Nat)) (length : values.length = numPacks * groupsPerPack)
      (each : ∀ group < numPacks * groupsPerPack, ∃ value, values[group]? = some (some value)) :
      ∃ results, values.mapM id = some results ∧ results.length = numPacks * groupsPerPack ∧
        ∀ (group : Nat) value, values[group]? = some (some value) → results[group]? = some value := by
    obtain ⟨results, mapped, count, read⟩ := mapM_total values id (by
      intro item member
      obtain ⟨group, found⟩ := mem_iff_getElem?.mp member
      obtain ⟨bound, _⟩ := List.getElem?_eq_some_iff.mp found
      obtain ⟨value, there⟩ := each group (by omega)
      rw [found] at there
      cases there
      exact ⟨value, rfl⟩)
    exact ⟨results, mapped, count.trans length, fun group value found => read group _ found⟩
  obtain ⟨packIndex, mappedIndex, indexLength, readIndex⟩ := stored packing.packIndex packed.indices
    fun group inside => by
      obtain ⟨pack, _, _, found, _⟩ := packed.assigned group (complete group inside)
      exact ⟨pack, found⟩
  obtain ⟨rankInPack, mappedRank, rankLength, readRank⟩ := stored packing.rankInPack packed.ranks
    fun group inside => by
      obtain ⟨_, rank, _, _, found, _⟩ := packed.assigned group (complete group inside)
      exact ⟨rank, found⟩
  refine ⟨packIndex, rankInPack, mappedIndex, mappedRank, indexLength, rankLength, ?_⟩
  generalize coded : zipWith (fun pack rank => pack * groupsPerPack + rank) packIndex
    rankInPack = codes
  have length : codes.length = numPacks * groupsPerPack := by
    rw [← coded, length_zipWith, indexLength, rankLength, Nat.min_self]
  -- the code of a group, and the bounds it comes from
  have code (group : Nat) (inside : group < numPacks * groupsPerPack) : ∃ pack rank,
      packing.packIndex[group]? = some (some pack) ∧ packing.rankInPack[group]? = some (some rank) ∧
        codes[group]? = some (pack * groupsPerPack + rank) ∧ pack < numPacks ∧ rank < groupsPerPack := by
    obtain ⟨pack, rank, count, atIndex, atRank, counted, below⟩ :=
      packed.assigned group (complete group inside)
    obtain ⟨bound, _⟩ := List.getElem?_eq_some_iff.mp counted
    have most := packed.most pack count counted
    have items := packed.items
    refine ⟨pack, rank, atIndex, atRank, ?_, by omega, by omega⟩
    rw [← coded, getElem?_zipWith, readIndex group pack atIndex, readRank group rank atRank]
  have perm := @perm_range codes ?_ ?_
  · rw [length] at perm
    exact perm
  · rw [nodup_iff_pairwise_ne, pairwise_iff_getElem]
    intro first second firstBound secondBound before same
    obtain ⟨pack, rank, atIndex, atRank, read, _, below⟩ := code first (by omega)
    obtain ⟨pack', rank', atIndex', atRank', read', _, below'⟩ := code second (by omega)
    rw [getElem?_eq_getElem firstBound] at read
    rw [getElem?_eq_getElem secondBound, ← same] at read'
    have equal := some.inj (read.symm.trans read')
    have packs : pack = pack' := by
      have quotient : (pack * groupsPerPack + rank) / groupsPerPack =
          (pack' * groupsPerPack + rank') / groupsPerPack := congrArg (· / groupsPerPack) equal
      rwa [Nat.mul_comm pack, Nat.mul_comm pack', Nat.mul_add_div (by omega), Nat.mul_add_div (by omega),
        Nat.div_eq_of_lt below, Nat.div_eq_of_lt below', Nat.add_zero, Nat.add_zero] at quotient
    subst packs
    have ranks : rank = rank' := by omega
    subst ranks
    have := packed.distinct first (complete first (by omega)) second (complete second (by omega))
      (atIndex.trans atIndex'.symm) (atRank.trans atRank'.symm)
    omega
  · intro value member
    obtain ⟨group, found⟩ := mem_iff_getElem?.mp member
    obtain ⟨bound, _⟩ := List.getElem?_eq_some_iff.mp found
    obtain ⟨pack, rank, _, _, read, packBound, rankBound⟩ := code group (by omega)
    rw [found] at read
    cases read
    rw [length]
    calc pack * groupsPerPack + rank
        < pack * groupsPerPack + groupsPerPack := Nat.add_lt_add_left rankBound _
      _ = (pack + 1) * groupsPerPack := (Nat.succ_mul pack groupsPerPack).symm
      _ ≤ numPacks * groupsPerPack := Nat.mul_le_mul_right _ packBound

/-- Packing returns for every load, and the places of the groups are the first numbers. -/
theorem balancedPacking_spec {loads : Loads Load} {weight : List Load} {numPacks : Nat}
    (positive : 0 < numPacks) (divides : weight.length % numPacks = 0) :
    ∃ packIndex rankInPack, loads.balancedPacking weight numPacks = some (packIndex, rankInPack) ∧
      packIndex.length = weight.length ∧ rankInPack.length = weight.length ∧
      (List.zipWith (fun pack rank => pack * (weight.length / numPacks) + rank) packIndex
        rankInPack).Perm (List.range weight.length) := by
  have product : numPacks * (weight.length / numPacks) = weight.length :=
    Nat.mul_div_cancel' (Nat.dvd_of_mod_eq_zero divides)
  unfold Loads.balancedPacking
  simp only
  rw [if_neg (by omega)]
  by_cases single : weight.length / numPacks = 1
  · rw [if_pos single, single]
    refine ⟨_, _, rfl, length_range, length_replicate, ?_⟩
    have same : zipWith (fun pack rank => pack * 1 + rank) (range weight.length)
        (replicate weight.length 0) = range weight.length := by
      apply ext_getElem?
      intro i
      rw [getElem?_zipWith, getElem?_replicate]
      by_cases inside : i < weight.length
      · rw [getElem?_range inside, if_pos inside]
        simp only [Nat.mul_one, Nat.add_zero]
      · rw [if_neg inside, getElem?_eq_none (by rw [length_range]; omega)]
    rw [same]
  · rw [if_neg single]
    by_cases none : weight.length / numPacks = 0
    · -- no groups at all
      have empty : weight.length = 0 := by rw [← product, none, Nat.mul_zero]
      have order := (loads.argsortDescending.perm weight).length_eq
      rw [empty] at order
      rw [length_eq_zero_iff.mp order, empty]
      exact ⟨[], [], rfl, rfl, rfl, Perm.refl []⟩
    · have order := loads.argsortDescending.perm weight
      obtain ⟨final, ran, packed⟩ := (Packed.init numPacks (weight.length / numPacks) weight.length
        loads.zero none).run loads weight (loads.argsortDescending.run weight)
        (by rw [order.length_eq, length_range, length_nil]; omega)
        (fun group member => mem_range.mp (order.mem_iff.mp member))
        (by rw [nil_append]; exact order.nodup_iff.mpr nodup_range)
      rw [ran, bind_some]
      obtain ⟨packIndex, rankInPack, mappedIndex, mappedRank, indexLength, rankLength, perm⟩ :=
        packed.places product (by
          intro group inside
          rw [append_nil, mem_reverse]
          exact order.mem_iff.mpr (mem_range.mpr inside))
      refine ⟨packIndex, rankInPack, ?_, indexLength, rankLength, perm⟩
      rw [mappedIndex, bind_some, mappedRank, map_some]

end VllmDcu.BalancedPacking

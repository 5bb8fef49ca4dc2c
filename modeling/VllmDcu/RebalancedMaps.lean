import VllmDcu.HierarchicalBalance
import VllmDcu.SlotPreserving

/-! The maps of a rearrangement describe one assignment of physical experts to logical ones. -/
namespace VllmDcu.RebalancedMaps
open TensorRows IndexPermutations ExpertBalance ExpertReplicas HierarchicalBalance SlotPreserving
open List Option

/-- `log2phy`, from a number of writes on. -/
structure Written (log2phy : List (List Int)) (slots : List Slot) (experts width : Nat) : Prop where
  length : log2phy.length = experts
  row : ∀ expert < experts, ∃ row, log2phy[expert]? = some row ∧ row.length = width ∧
    ∀ replica < width,
      (∃ p : Nat, slots[p]? = some (expert, replica) ∧ row[replica]? = some (p : Int)) ∨
        (expert, replica) ∉ slots ∧ row[replica]? = some (-1)

theorem writeReplica_spec {log2phy : List (List Int)} {slots : List Slot} {experts width : Nat}
    {slot : Slot} (written : Written log2phy slots experts width) (expert : slot.1 < experts)
    (replica : slot.2 < width) :
    ∃ next, Loads.writeReplica log2phy (slot, slots.length) = some next ∧
      Written next (slots ++ [slot]) experts width := by
  obtain ⟨row, found, length, entries⟩ := written.row slot.1 expert
  have inside : slot.1 < log2phy.length := by
    rw [written.length]
    exact expert
  refine ⟨log2phy.set slot.1 (row.set slot.2 slots.length), ?_, ?_, ?_⟩
  · unfold Loads.writeReplica
    rw [found, bind_some, if_pos (by rw [length]; exact replica)]
  · rw [length_set, written.length]
  · have earlier (p : Nat) (other : Slot) (there : slots[p]? = some other) :
        (slots ++ [slot])[p]? = some other := by
      rw [getElem?_append_left (List.getElem?_eq_some_iff.mp there).1, there]
    have absent (other : Slot) (new : other ∉ slots) (apart : other ≠ slot) : other ∉ slots ++ [slot] := by
      rw [mem_append, mem_singleton, not_or]
      exact ⟨new, apart⟩
    intro other bound
    by_cases same : other = slot.1
    · subst same
      refine ⟨_, getElem?_set_self inside, by rw [length_set, length], ?_⟩
      intro index below
      by_cases here : index = slot.2
      · subst here
        refine Or.inl ⟨slots.length, ?_, getElem?_set_self (by rw [length]; exact below)⟩
        rw [getElem?_append_right (Nat.le_refl _), Nat.sub_self]
        rfl
      · rw [getElem?_set_ne (Ne.symm here)]
        rcases entries index below with ⟨p, there, read⟩ | ⟨new, read⟩
        · exact Or.inl ⟨p, earlier p _ there, read⟩
        · exact Or.inr ⟨absent _ new fun equal => here (congrArg Prod.snd equal), read⟩
    · obtain ⟨row', found', length', entries'⟩ := written.row other bound
      refine ⟨row', ?_, length', ?_⟩
      · rw [getElem?_set_ne (Ne.symm same), found']
      · intro index below
        rcases entries' index below with ⟨p, there, read⟩ | ⟨new, read⟩
        · exact Or.inl ⟨p, earlier p _ there, read⟩
        · exact Or.inr ⟨absent _ new fun equal => same (congrArg Prod.fst equal), read⟩

/-- All replicas written. -/
theorem writeReplicas_spec {slots : List Slot} (experts width : Nat)
    (within : ∀ slot ∈ slots, slot.1 < experts ∧ slot.2 < width) :
    ∃ log2phy, slots.zipIdx.foldlM Loads.writeReplica
        (List.replicate experts (List.replicate width (-1))) = some log2phy ∧
      Written log2phy slots experts width := by
  induction slots using reverseRecOn with
  | nil =>
    refine ⟨_, rfl, length_replicate, ?_⟩
    intro expert bound
    refine ⟨_, getElem?_replicate_of_lt bound, length_replicate, ?_⟩
    intro replica below
    exact Or.inr ⟨nofun, getElem?_replicate_of_lt below⟩
  | append_singleton slots slot ih =>
    obtain ⟨log2phy, ran, written⟩ := ih fun other member => within other (mem_append_left _ member)
    have bounds := within slot (mem_append_right _ (mem_singleton_self slot))
    obtain ⟨next, wrote, written'⟩ := writeReplica_spec written bounds.1 bounds.2
    refine ⟨next, ?_, written'⟩
    rw [zipIdx_append, foldlM_append, ran]
    change foldlM Loads.writeReplica log2phy [(slot, 0 + slots.length)] = some next
    rw [Nat.zero_add, foldlM_cons, wrote]
    rfl

/-! The number of replicas. -/

variable {slots : List Slot} {counts : List Nat}

/-- The physical experts, expert by expert. -/
theorem Replicated.flatMap_perm (replicated : Replicated slots counts) :
    slots.Perm (counts.zipIdx.flatMap fun entry => (List.range entry.1).map fun replica =>
      (entry.2, replica)) := by
  apply (perm_ext_iff_of_nodup replicated.nodup ?_).mpr
  · intro slot
    rw [mem_flatMap, replicated.mem_iff slot.1 slot.2]
    constructor
    · intro ⟨count, counted, below⟩
      exact ⟨(count, slot.1), mk_mem_zipIdx_iff_getElem?.mpr counted,
        List.mem_map.mpr ⟨slot.2, mem_range.mpr below, rfl⟩⟩
    · rintro ⟨⟨count, expert⟩, member, inside⟩
      obtain ⟨replica, below, rfl⟩ := List.mem_map.mp inside
      exact ⟨count, mk_mem_zipIdx_iff_getElem?.mp member, mem_range.mp below⟩
  · rw [nodup_flatMap]
    constructor
    · intro entry _
      apply nodup_range.map
      intro a b equal
      exact (Prod.mk.inj equal).2
    · have distinct : (counts.zipIdx.map Prod.snd).Nodup := by
        rw [zipIdx_map_snd]
        exact nodup_range'
      apply (pairwise_map.mp distinct).imp
      intro first second apart slot inFirst inSecond
      obtain ⟨_, _, rfl⟩ := List.mem_map.mp inFirst
      obtain ⟨_, _, equal⟩ := List.mem_map.mp inSecond
      exact apart (Prod.mk.inj equal).1.symm

theorem Replicated.length_eq (replicated : Replicated slots counts) :
    slots.length = counts.sum := by
  rw [(Replicated.flatMap_perm replicated).length_eq, length_flatMap]
  congr 1
  simp only [length_map, length_range]
  exact zipIdx_map_fst 0 counts

theorem length_le_sum (counts : List Nat) (positive : ∀ count ∈ counts, 1 ≤ count) :
    counts.length ≤ counts.sum := by
  induction counts with
  | nil => exact Nat.le_refl _
  | cons count counts ih =>
    have first := positive count mem_cons_self
    have rest := ih fun other member => positive other (mem_cons_of_mem count member)
    rw [length_cons, sum_cons]
    omega

/-- The others have a replica each, so none has more than the redundant ones and its own. -/
theorem Replicated.count_le (replicated : Replicated slots counts) (count : Nat)
    (member : count ∈ counts) :
    count ≤ slots.length - counts.length + 1 := by
  have length := Replicated.length_eq replicated
  obtain ⟨before, after, rfl⟩ := append_of_mem member
  have less := length_le_sum before fun other inside =>
    replicated.positive other (mem_append_left _ inside)
  have less' := length_le_sum after fun other inside =>
    replicated.positive other (mem_append_right _ (mem_cons_of_mem count inside))
  rw [sum_append, sum_cons] at length
  rw [length_append, length_cons]
  omega

/-- The entry of a logical expert in `log2phy`: the physical experts that are mapped to it, once each,
and -1 in the rest. -/
def Lists (phy2log : List Nat) (row : List Int) (width count expert : Nat) : Prop :=
  ∃ held : List Nat, row = held.map (fun (p : Nat) => (p : Int)) ++ List.replicate (width - count) (-1) ∧
    held.length = count ∧ held.Nodup ∧ ∀ p : Nat, p ∈ held ↔ phy2log[p]? = some expert

/-- The maps of a layer describe one assignment of `numReplicas` physical experts, as many on each rank. -/
structure Consistent (numLogical numReplicas numRanks : Nat) (maps : Loads.Maps) : Prop where
  phy2log_length : maps.phy2log.length = numReplicas
  logical : ∀ expert ∈ maps.phy2log, expert < numLogical
  log2phy_length : maps.log2phy.length = numLogical
  logcnt_length : maps.logcnt.length = numLogical
  replicas : ∀ (expert count : Nat), maps.logcnt[expert]? = some count → 1 ≤ count ∧
    ∃ row, maps.log2phy[expert]? = some row ∧ row.length = numReplicas - numLogical + 1 ∧
      Lists maps.phy2log row (numReplicas - numLogical + 1) count expert
  ranks : numRanks * (numReplicas / numRanks) = numReplicas
  rank : ∀ rank < numRanks,
    (segment maps.phy2log (numReplicas / numRanks) rank).length = numReplicas / numRanks

/-- The row of an expert lists its physical experts by their replica index. -/
theorem Written.lists {log2phy : List (List Int)} {slots : List Slot} {counts : List Nat}
    {experts width : Nat} (written : Written log2phy slots experts width)
    (replicated : Replicated slots counts) (expert count : Nat) (counted : counts[expert]? = some count)
    (bound : expert < experts) (fits : count ≤ width) :
    ∃ row, log2phy[expert]? = some row ∧ row.length = width ∧
      Lists (slots.map Prod.fst) row width count expert := by
  obtain ⟨row, found, length, entries⟩ := written.row expert bound
  have mem_iff (replica : Nat) : (expert, replica) ∈ slots ↔ replica < count := by
    rw [replicated.mem_iff]
    constructor
    · intro ⟨other, counted', below⟩
      rw [counted] at counted'
      cases counted'
      exact below
    · exact fun below => ⟨count, counted, below⟩
  -- the place of a replica
  let place (replica : Nat) := slots.idxOf (expert, replica)
  have placed (replica : Nat) (below : replica < count) :
      slots[place replica]? = some (expert, replica) :=
    getElem?_idxOf ((mem_iff replica).mpr below)
  have unique (p replica : Nat) (there : slots[p]? = some (expert, replica)) : p = place replica := by
    have below := (mem_iff replica).mp (mem_of_getElem? there)
    exact (getElem?_inj (List.getElem?_eq_some_iff.mp there).1 replicated.nodup).mp
      (there.trans (placed replica below).symm)
  refine ⟨row, found, length, (range count).map place, ?_, ?_, ?_, ?_⟩
  · apply ext_getElem?
    intro replica
    by_cases below : replica < count
    · rw [getElem?_append_left (by simpa using below), getElem?_map, getElem?_map,
        getElem?_range below]
      rcases entries replica (by omega) with ⟨p, there, read⟩ | ⟨new, _⟩
      · rw [read, unique p replica there]
        rfl
      · exact absurd ((mem_iff replica).mpr below) new
    · rw [getElem?_append_right (by simpa using below)]
      simp only [length_map, length_range]
      by_cases inside : replica < width
      · rw [getElem?_replicate_of_lt (by omega)]
        rcases entries replica inside with ⟨p, there, _⟩ | ⟨_, read⟩
        · exact absurd ((mem_iff replica).mp (mem_of_getElem? there)) below
        · exact read
      · rw [getElem?_eq_none (by omega), getElem?_eq_none]
        rw [length_replicate]
        omega
  · rw [length_map, length_range]
  · apply Nodup.map_on _ nodup_range
    intro a inA b inB same
    have atA := placed a (mem_range.mp inA)
    rw [same, placed b (mem_range.mp inB)] at atA
    cases atA
    rfl
  · intro p
    rw [List.mem_map, getElem?_map, map_eq_some_iff]
    constructor
    · intro ⟨replica, below, same⟩
      exact ⟨(expert, replica), same ▸ placed replica (mem_range.mp below), rfl⟩
    · rintro ⟨⟨_, replica⟩, there, rfl⟩
      exact ⟨replica, mem_range.mpr ((mem_iff replica).mp (mem_of_getElem? there)),
        (unique p replica there).symm⟩

variable {Load : Type} (loads : Loads Load)

/-- What the assertions of the hierarchical policy ask for, and that nothing is divided by zero. -/
def Divides (numLogical numPhysical numGroups numNodes numGpus : Nat) : Prop :=
  0 < numGroups ∧ numLogical % numGroups = 0 ∧ 0 < numNodes ∧ numGroups % numNodes = 0 ∧
    numGpus % numNodes = 0 ∧ 0 < numGpus ∧ numPhysical % numGpus = 0 ∧ 0 < numLogical / numNodes

/-- A configuration that is accepted, with the policy that is used. -/
def Accepted (numLogical numReplicas numGroups numNodes numRanks : Nat) : Prop :=
  0 < numNodes ∧
    if numGroups % numNodes = 0 then Divides numLogical numReplicas numGroups numNodes numRanks
    else Divides numLogical numReplicas 1 1 numRanks

instance (numLogical numPhysical numGroups numNodes numGpus : Nat) :
    Decidable (Divides numLogical numPhysical numGroups numNodes numGpus) := by
  unfold Divides
  infer_instance

instance (numLogical numReplicas numGroups numNodes numRanks : Nat) :
    Decidable (Accepted numLogical numReplicas numGroups numNodes numRanks) := by
  unfold Accepted
  infer_instance

variable (weight : List Load)

theorem divides_spec {numPhysical numGroups numNodes numGpus : Nat}
    (divides : Divides weight.length numPhysical numGroups numNodes numGpus)
    (enough : weight.length ≤ numPhysical) :
    ∃ slots logcnt, loads.rebalanceExpertsHierarchical weight numPhysical numGroups numNodes numGpus =
        some (slots, logcnt) ∧
      slots.length = numPhysical ∧ logcnt.length = weight.length ∧ Replicated slots logcnt := by
  obtain ⟨groups, logical, nodes, grouped, gpus, positive, physical, rows⟩ := divides
  exact hierarchical_spec loads (by omega) enough

/-- Both policies. -/
theorem policy_spec {numReplicas numGroups numNodes numRanks : Nat}
    (accepted : Accepted weight.length numReplicas numGroups numNodes numRanks)
    (enough : weight.length ≤ numReplicas) :
    ∃ slots logcnt, (if numGroups % numNodes = 0 then
        loads.rebalanceExpertsHierarchical weight numReplicas numGroups numNodes numRanks
      else loads.rebalanceExpertsHierarchical weight numReplicas 1 1 numRanks) = some (slots, logcnt) ∧
      slots.length = numReplicas ∧ logcnt.length = weight.length ∧ Replicated slots logcnt ∧
        0 < numRanks ∧ numReplicas % numRanks = 0 := by
  obtain ⟨_, divides⟩ := accepted
  by_cases grouped : numGroups % numNodes = 0
  · rw [if_pos grouped] at divides ⊢
    obtain ⟨slots, logcnt, ran, length, width, replicated⟩ := divides_spec loads weight divides enough
    obtain ⟨_, _, _, _, _, positive, physical, _⟩ := divides
    exact ⟨slots, logcnt, ran, length, width, replicated, positive, physical⟩
  · rw [if_neg grouped] at divides ⊢
    obtain ⟨slots, logcnt, ran, length, width, replicated⟩ := divides_spec loads weight divides enough
    obtain ⟨_, _, _, _, _, positive, physical, _⟩ := divides
    exact ⟨slots, logcnt, ran, length, width, replicated, positive, physical⟩

/-- Reordering every rank reorders all physical experts. -/
theorem segments_perm {row row' : List Slot} {size ranks : Nat} (length : row.length = ranks * size)
    (length' : row'.length = ranks * size)
    (each : ∀ rank < ranks, (segment row' size rank).Perm (segment row size rank)) : row'.Perm row := by
  have joined (list : List Slot) (total : list.length = ranks * size) :
      list = (range ranks).flatMap fun rank => segment list size rank := by
    have parts (count : Nat) :
        list.take (count * size) = (range count).flatMap fun rank => segment list size rank := by
      induction count with
      | zero => rw [Nat.zero_mul]; rfl
      | succ count ih =>
        rw [range_succ, flatMap_append, flatMap_singleton, ← ih, Nat.succ_mul, take_add]
        rfl
    rw [← parts, ← total, take_length]
  rw [joined row length, joined row' length']
  apply Perm.flatMap_left
  intro rank member
  exact each rank (mem_range.mp member)

/-- From complete replicas to the three maps. -/
theorem maps_consistent {slots : List Slot} {logcnt : List Nat} {experts numReplicas numRanks : Nat}
    (length : slots.length = numReplicas) (width : logcnt.length = experts)
    (replicated : Replicated slots logcnt) (divides : numReplicas % numRanks = 0) :
    ∃ log2phy, slots.zipIdx.foldlM Loads.writeReplica
        (List.replicate experts (List.replicate (numReplicas - experts + 1) (-1))) = some log2phy ∧
      Consistent experts numReplicas numRanks ⟨slots.map Prod.fst, log2phy, logcnt⟩ := by
  have bound (count : Nat) (member : count ∈ logcnt) : count ≤ numReplicas - experts + 1 := by
    have most := Replicated.count_le replicated count member
    rw [length, width] at most
    exact most
  obtain ⟨log2phy, ran, written⟩ := writeReplicas_spec experts (numReplicas - experts + 1) (by
    intro slot member
    have expert := replicated.expert_lt member
    obtain ⟨count, counted, below⟩ := (replicated.mem_iff slot.1 slot.2).mp member
    have := bound count (mem_of_getElem? counted)
    omega)
  have total := Nat.div_add_mod numReplicas numRanks
  rw [divides] at total
  refine ⟨log2phy, ran, ?_, ?_, written.length, width, ?_, total, ?_⟩
  · rw [length_map, length]
  · intro expert member
    obtain ⟨slot, inside, rfl⟩ := List.mem_map.mp member
    rw [← width]
    exact replicated.expert_lt inside
  · intro expert count counted
    have member := mem_of_getElem? counted
    refine ⟨replicated.positive count member, ?_⟩
    apply written.lists replicated expert count counted _ (bound count member)
    rw [← width]
    exact (List.getElem?_eq_some_iff.mp counted).1
  · intro rank inside
    apply segment_length
    have fits := segment_end (numReplicas / numRanks) rank numRanks inside
    rw [length_map, length]
    exact Nat.le_trans fits (Nat.le_of_eq total)

theorem rebalanceLayer_spec (numReplicas numGroups numNodes numRanks : Nat)
    (old : Option (List Int))
    (accepted : Accepted weight.length numReplicas numGroups numNodes numRanks)
    (enough : weight.length ≤ numReplicas) (shape : ∀ row ∈ old, numReplicas ≤ row.length) :
    ∃ maps, loads.rebalanceLayer weight numReplicas numGroups numNodes numRanks old = some maps ∧
      Consistent weight.length numReplicas numRanks maps := by
  obtain ⟨slots, logcnt, ran, length, width, replicated, positive, divides⟩ := policy_spec loads weight accepted enough
  obtain ⟨post, kept, perm⟩ : ∃ post : List Slot, (old = none ∧ post = slots ∨
      ∃ oldPhy2log, old = some oldPhy2log ∧
        loads.preserveIntragpuSlots slots numRanks oldPhy2log = some post) ∧ post.Perm slots := by
    cases old with
    | none => exact ⟨slots, Or.inl ⟨rfl, rfl⟩, Perm.refl slots⟩
    | some oldPhy2log =>
      obtain ⟨post, preserved, count, ranks⟩ := preserveIntragpuSlots_spec loads slots numRanks
        oldPhy2log positive (by rw [length, divides]) (by rw [length]; exact shape oldPhy2log rfl)
      have total := Nat.div_add_mod slots.length numRanks
      rw [length, divides, ← length] at total
      exact ⟨post, Or.inr ⟨oldPhy2log, rfl, preserved⟩, segments_perm total.symm
        (count.trans total.symm) fun rank inside => (ranks rank inside).perm⟩
  obtain ⟨log2phy, written, consistent⟩ := maps_consistent
    (perm.length_eq.trans length) width (replicated.perm perm) divides
  refine ⟨_, ?_, consistent⟩
  unfold Loads.rebalanceLayer
  rw [if_neg (Nat.pos_iff_ne_zero.mp accepted.1), ran, bind_some]
  rcases kept with ⟨rfl, rfl⟩ | ⟨oldPhy2log, rfl, preserved⟩
  · simp only [bind_some]
    rw [written, map_some]
  · simp only
    rw [preserved, bind_some, written, map_some]

/-- Loads that are counts. -/
def countLoads : Loads Nat where
  zero := 0
  add := (· + ·)
  sum := List.sum
  divide := (· / ·)
  lt a b := decide (a < b)
  argsortDescending := Argsort.ofLe (fun a b => decide (a < b) = false) 0
    (fun a b => by simp only [decide_eq_false_iff_not]; omega)
    (fun a b c => by simp only [decide_eq_false_iff_not]; omega)
  argsort := Argsort.ofLe (· ≤ ·) 0 Nat.le_total fun _ _ _ => Nat.le_trans

end VllmDcu.RebalancedMaps

import Mathlib.Algebra.Order.Ring.Nat
import VllmDcu.ExpertReplicas

/-! The three numberings of an expert on its way: by the group packed to a node, by the replica of the
node, by the GPU. Each one renames slots or experts, so the replicas stay complete. -/
namespace VllmDcu.HierarchicalBalance
open TensorRows IndexPermutations ExpertBalance BalancedPacking ExpertReplicas List Option

theorem reshape_length {Value : Type} (values : List Value) (rows columns : Nat) :
    (reshape values rows columns).length = rows := by
  rw [reshape, length_map, length_range]

theorem reshape_row {Value : Type} {values : List Value} {rows columns : Nat}
    (size : values.length = rows * columns) {row : List Value} (member : row ∈ reshape values rows columns) :
    row.length = columns := by
  obtain ⟨index, inside, rfl⟩ := List.mem_map.mp member
  have next : (index + 1) * columns ≤ rows * columns :=
    Nat.mul_le_mul_right columns (mem_range.mp inside)
  rw [Nat.succ_mul] at next
  rw [length_take, length_drop]
  omega

/-- The nodes one after another, each one's experts numbered after those of the nodes before. -/
theorem nodes_replicated {packed : List (List Slot × List Nat)} {size : Nat}
    (each : ∀ node ∈ packed, Replicated node.1 node.2 ∧ node.2.length = size) :
    Replicated (packed.zipIdx.map fun (node, index) =>
        node.1.map fun slot => (slot.1 + index * size, slot.2)).flatten
      (packed.map Prod.snd).flatten ∧ (packed.map Prod.snd).flatten.length = packed.length * size := by
  induction packed using reverseRecOn with
  | nil =>
    refine ⟨⟨nodup_nil, ?_, nofun⟩, (Nat.zero_mul size).symm⟩
    intro expert replica
    constructor
    · exact nofun
    · rintro ⟨_, none, _⟩
      cases none
  | append_singleton packed node ih =>
    obtain ⟨replicated, length⟩ := ih fun other member => each other (mem_append_left _ member)
    obtain ⟨own, width⟩ := each node (by simp)
    rw [zipIdx_append, map_append, flatten_append, map_append, flatten_append]
    have added := replicated.append own
    rw [length] at added
    constructor
    · simpa only [zipIdx_singleton, map_cons, map_nil, flatten_cons,
        flatten_nil, append_nil, Nat.zero_add] using added
    · rw [length_append, length, length_append, length_singleton, Nat.succ_mul]
      simp only [map_cons, map_nil, flatten_cons, flatten_nil, append_nil, width]

theorem nodes_length {packed : List (List Slot × List Nat)} (size slots : Nat) (start : Nat)
    (each : ∀ node ∈ packed, node.1.length = slots) :
    ((packed.zipIdx start).map fun (node, index) =>
      node.1.map fun slot => ((slot.1 + index * size, slot.2) : Slot)).flatten.length =
        packed.length * slots := by
  induction packed generalizing start with
  | nil => rw [length_nil, Nat.zero_mul]; rfl
  | cons node packed ih =>
    rw [zipIdx_cons, map_cons, flatten_cons, length_append, length_map,
      each node mem_cons_self, ih (start + 1) fun other member =>
        each other (mem_cons_of_mem node member), length_cons, Nat.succ_mul, Nat.add_comm]

variable {Load : Type} (loads : Loads Load)

/-- Replicas and packing of one node. -/
theorem node_spec {tokens : List Load} {numPhy gpus phyExpertsPerGpu : Nat} (positive : 0 < gpus)
    (nonempty : 0 < tokens.length) (enough : tokens.length ≤ numPhy)
    (product : numPhy = gpus * phyExpertsPerGpu) :
    ∃ node, ((loads.replicateExperts tokens numPhy).bind fun replicas =>
        (loads.packNode tokens replicas gpus phyExpertsPerGpu).map fun slots => (slots, replicas.2)) =
          some node ∧
      Replicated node.1 node.2 ∧ node.2.length = tokens.length ∧ node.1.length = numPhy := by
  obtain ⟨slots, counts, replicated, length, width, complete⟩ :=
    replicateExperts_spec loads tokens numPhy nonempty enough
  obtain ⟨packed, made, perm⟩ := packNode_spec loads positive width (length.trans product) complete
  refine ⟨(packed, counts), ?_, complete.perm perm, width, perm.length_eq.trans length⟩
  rw [replicated, bind_some, made, map_some]

/-- The shapes that the assertions leave. -/
structure Shapes (numLogicalExperts numPhysicalExperts numGroups numNodes numGpus : Nat) : Prop where
  nodes : 0 < numNodes
  groups : numGroups * (numLogicalExperts / numGroups) = numLogicalExperts
  groupsPerNode : numGroups % numNodes = 0
  expertsPerNode : numNodes * (numLogicalExperts / numNodes) = numLogicalExperts
  nonempty : 0 < numLogicalExperts / numNodes
  gpusPerNode : 0 < numGpus / numNodes
  physicalPerNode : numNodes * (numPhysicalExperts / numNodes) = numPhysicalExperts
  physicalPerGpu : numPhysicalExperts / numNodes =
    numGpus / numNodes * (numPhysicalExperts / numGpus)

theorem shapes_of_accepted {numLogicalExperts numPhysicalExperts numGroups numNodes numGpus : Nat}
    (accepted : ¬ (numGroups = 0 ∨ numLogicalExperts % numGroups ≠ 0 ∨ numNodes = 0 ∨
      numGroups % numNodes ≠ 0 ∨ numGpus % numNodes ≠ 0 ∨ numGpus = 0 ∨
      numPhysicalExperts % numGpus ≠ 0 ∨ numLogicalExperts / numNodes = 0)) :
    Shapes numLogicalExperts numPhysicalExperts numGroups numNodes numGpus := by
  simp only [not_or, Ne, Decidable.not_not] at accepted
  obtain ⟨groups, logical, nodes, perNode, gpus, someGpu, physical, nonempty⟩ := accepted
  have groupsDvd := Nat.dvd_of_mod_eq_zero logical
  have nodesDvd := Nat.dvd_of_mod_eq_zero perNode
  have gpusDvd := Nat.dvd_of_mod_eq_zero gpus
  have physicalDvd := Nat.dvd_of_mod_eq_zero physical
  constructor
  · omega
  · exact Nat.mul_div_cancel' groupsDvd
  · exact perNode
  · exact Nat.mul_div_cancel' (nodesDvd.trans groupsDvd)
  · exact Nat.pos_of_ne_zero nonempty
  · exact Nat.div_pos (Nat.le_of_dvd (by omega) gpusDvd) (by omega)
  · exact Nat.mul_div_cancel' (gpusDvd.trans physicalDvd)
  · obtain ⟨gpusPerNode, rfl⟩ := gpusDvd
    obtain ⟨slotsPerGpu, rfl⟩ := physicalDvd
    rw [Nat.mul_div_cancel_left _ (by omega : 0 < numNodes), Nat.mul_assoc,
      Nat.mul_div_cancel_left _ (by omega : 0 < numNodes), ← Nat.mul_assoc,
      Nat.mul_div_cancel_left _ (Nat.pos_of_ne_zero someGpu)]

/-- `log2mlog` numbers the experts of the packed groups. -/
theorem log2mlog_perm (numGroups groupSize : Nat) (codes : List Nat)
    (perm : codes.Perm (List.range numGroups)) :
    (codes.flatMap fun group => (List.range groupSize).map (group * groupSize + ·)).Perm
      (List.range (numGroups * groupSize)) :=
  blocks_perm codes numGroups groupSize perm

/-- The nodes of a layer: each with its replicas. -/
theorem nodes_spec {tokensPerMlog : List Load} {numPhysicalExperts numGroups numNodes numGpus : Nat}
    (shapes : Shapes tokensPerMlog.length numPhysicalExperts numGroups numNodes numGpus)
    (enough : tokensPerMlog.length ≤ numPhysicalExperts) :
    ∃ packed, ((reshape tokensPerMlog numNodes (tokensPerMlog.length / numNodes)).mapM fun tokens =>
        (loads.replicateExperts tokens (numPhysicalExperts / numNodes)).bind fun replicas =>
          (loads.packNode tokens replicas (numGpus / numNodes) (numPhysicalExperts / numGpus)).map
            fun slots => (slots, replicas.2)) = some packed ∧
      packed.length = numNodes ∧ ∀ node ∈ packed, Replicated node.1 node.2 ∧
        node.2.length = tokensPerMlog.length / numNodes ∧
        node.1.length = numPhysicalExperts / numNodes := by
  have spec (tokens : List Load)
      (member : tokens ∈ reshape tokensPerMlog numNodes (tokensPerMlog.length / numNodes)) := by
    have width := reshape_row shapes.expertsPerNode.symm member
    have node := node_spec loads shapes.gpusPerNode (width.symm ▸ shapes.nonempty)
      (width.symm ▸ Nat.div_le_div_right enough) shapes.physicalPerGpu
    rw [width] at node
    exact node
  obtain ⟨packed, mapped, count, read⟩ := mapM_total
    (reshape tokensPerMlog numNodes (tokensPerMlog.length / numNodes)) _ fun tokens member => by
      obtain ⟨node, made, _⟩ := spec tokens member
      exact ⟨node, made⟩
  rw [reshape_length] at count
  refine ⟨packed, mapped, count, ?_⟩
  intro node member
  obtain ⟨index, found⟩ := mem_iff_getElem?.mp member
  obtain ⟨bound, _⟩ := List.getElem?_eq_some_iff.mp found
  obtain ⟨tokens, there⟩ : ∃ tokens,
      (reshape tokensPerMlog numNodes (tokensPerMlog.length / numNodes))[index]? = some tokens :=
    ⟨_, getElem?_eq_getElem (by rw [reshape_length]; omega)⟩
  have ran := read index _ there
  rw [found] at ran
  obtain ⟨node', made, facts⟩ := spec _ (mem_of_getElem? there)
  rw [made] at ran
  cases ran
  exact facts

/-- Every accepted shape is balanced, whatever the loads are. -/
theorem hierarchical_spec {weight : List Load} {numPhysicalExperts numGroups numNodes numGpus : Nat}
    (accepted : ¬ (numGroups = 0 ∨ weight.length % numGroups ≠ 0 ∨ numNodes = 0 ∨
      numGroups % numNodes ≠ 0 ∨ numGpus % numNodes ≠ 0 ∨ numGpus = 0 ∨
      numPhysicalExperts % numGpus ≠ 0 ∨ weight.length / numNodes = 0))
    (enough : weight.length ≤ numPhysicalExperts) :
    ∃ slots logcnt, loads.rebalanceExpertsHierarchical weight numPhysicalExperts numGroups numNodes
        numGpus = some (slots, logcnt) ∧
      slots.length = numPhysicalExperts ∧ logcnt.length = weight.length ∧ Replicated slots logcnt := by
  have shapes := shapes_of_accepted accepted
  -- step 1: groups to nodes
  have groupCount : ((reshape weight numGroups (weight.length / numGroups)).map loads.sum).length =
      numGroups := by
    rw [length_map, reshape_length]
  obtain ⟨groupPackIndex, groupRankInPack, groupsPacked, _, _, codesPerm⟩ := balancedPacking_spec shapes.nodes
    (groupCount.symm ▸ shapes.groupsPerNode)
  rw [groupCount] at codesPerm
  have mlogPerm := log2mlog_perm numGroups (weight.length / numGroups) _ codesPerm
  rw [shapes.groups] at mlogPerm
  generalize log2mlogEq : (zipWith (fun pack rank => pack * (numGroups / numNodes) + rank)
    groupPackIndex groupRankInPack).flatMap (fun group => (range (weight.length / numGroups)).map
      (group * (weight.length / numGroups) + ·)) = log2mlog at mlogPerm
  have mlogLength : log2mlog.length = weight.length := by
    rw [mlogPerm.length_eq, length_range]
  obtain ⟨mlog2log, inverted, invPerm, inverse_iff⟩ := inverse_spec (mlogLength.symm ▸ mlogPerm)
  rw [mlogLength] at invPerm
  -- step 2 and 3: replicas and GPUs of each node
  obtain ⟨tokensPerMlog, gathered, tokensPerm, _⟩ := gather_perm weight invPerm
  have tokensLength := tokensPerm.length_eq
  obtain ⟨packed, mapped, nodeCount, nodes⟩ := nodes_spec loads (tokensLength.symm ▸ shapes) (tokensLength.symm ▸ enough)
  rw [tokensLength] at mapped nodes
  obtain ⟨complete, countsLength⟩ := nodes_replicated
    fun node member => ⟨(nodes node member).1, (nodes node member).2.1⟩
  have slotsLength := nodes_length (weight.length / numNodes) (numPhysicalExperts / numNodes) 0
    fun node member => (nodes node member).2.2
  rw [nodeCount, shapes.expertsPerNode] at countsLength
  rw [nodeCount, shapes.physicalPerNode] at slotsLength
  generalize pphyEq : (packed.zipIdx.map fun (node, index) =>
    node.1.map fun slot => ((slot.1 + index * (weight.length / numNodes), slot.2) : Slot)).flatten =
      pphy2mlog at complete slotsLength
  -- back to the experts' own numbers
  obtain ⟨pphy2log, renamed, renamedLength, readSlot⟩ := mapM_total pphy2mlog
    (fun slot => mlog2log[slot.1]?.map fun expert => ((expert, slot.2) : Slot)) (by
      intro slot member
      have bound := complete.expert_lt member
      rw [getElem?_eq_getElem (by rw [invPerm.length_eq, length_range]; omega)]
      exact ⟨_, rfl⟩)
  obtain ⟨logcnt, counted, countPerm, readCount⟩ := gather_perm (packed.map Prod.snd).flatten
    (countsLength.symm ▸ mlogPerm)
  have logcntLength : logcnt.length = weight.length := countPerm.length_eq.trans countsLength
  refine ⟨pphy2log, logcnt, ?_, renamedLength.trans slotsLength, logcntLength, ?_⟩
  · unfold Loads.rebalanceExpertsHierarchical
    simp only
    rw [if_neg accepted, groupsPacked, bind_some]
    rw [log2mlogEq, inverted, bind_some, gathered, bind_some, mapped, bind_some,
      pphyEq, renamed, bind_some, counted, map_some]
  · apply complete.rename log2mlog mlog2log inverse_iff pphy2log logcnt renamedLength
    · intro place slot found
      have read := readSlot place slot found
      have bound := complete.expert_lt (mem_of_getElem? found)
      have named := getElem?_eq_getElem
        (by rw [invPerm.length_eq, length_range]; omega : slot.1 < mlog2log.length)
      rw [named] at read
      exact ⟨_, named, read⟩
    · exact fun expert name named => readCount expert name named
    · intro expert bound
      exact ⟨_, getElem?_eq_getElem (by omega)⟩

end VllmDcu.HierarchicalBalance

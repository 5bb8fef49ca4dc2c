import VllmDcu.IndexPermutations

/-! The rearrangement of experts by their loads: groups of experts are packed to nodes, experts with
high loads get replicas, physical experts are packed to GPUs, and experts that stay on a GPU keep their
slots. Every operation acts on each layer by itself, so a layer is what is modelled. -/
namespace VllmDcu.ExpertBalance
open TensorRows IndexPermutations

/-- The arithmetic of loads. No law of it is used; a sum or quotient is never infinite. -/
structure Loads (Load : Type) where
  zero : Load
  add : Load → Load → Load
  sum : List Load → Load
  divide : Load → Nat → Load
  lt : Load → Load → Bool
  /-- `np.argsort(-weight)` -/
  argsortDescending : Argsort Load fun a b => lt a b = false
  /-- `np.argsort` of integers -/
  argsort : Argsort Nat (· ≤ ·)

/-- The first place with the least value, from `best` on. -/
def argminFrom {Value : Type} (lt : Value → Value → Bool) (best : Value) (place next : Nat) :
    List Value → Nat
  | [] => place
  | value :: rest =>
    if lt value best then argminFrom lt value next (next + 1) rest
    else argminFrom lt best place (next + 1) rest

/-- None for an empty array. -/
def argmin {Value : Type} (lt : Value → Value → Bool) : List Value → Option Nat
  | [] => none
  | value :: rest => some (argminFrom lt value 0 1 rest)

/-- Row by row, as many values in each. -/
def reshape {Value : Type} (values : List Value) (rows columns : Nat) : List (List Value) :=
  (List.range rows).map fun row => (values.drop (row * columns)).take columns

/-- A physical expert: its logical expert, and which replica of that one it is. -/
abbrev Slot := Nat × Nat

namespace Loads
variable {Load : Type} (loads : Loads Load)

/-- The order with `np.inf`, written none. -/
def ltInf : Option Load → Option Load → Bool
  | some a, some b => loads.lt a b
  | some _, none => true
  | none, _ => false

/-- The variables of the packing; -1 is written none. -/
structure Packing (Load : Type) where
  packWeights : List (Option Load)
  packItems : List Nat
  packIndex : List (Option Nat)
  rankInPack : List (Option Nat)

/-- The next group goes to the lightest pack that is not full. -/
def packGroup (weight : List Load) (groupsPerPack : Nat) (packing : Packing Load) (group : Nat) :
    Option (Packing Load) :=
  (argmin loads.ltInf packing.packWeights).bind fun pack =>
    packing.packItems[pack]?.bind fun items =>
      packing.packWeights[pack]?.bind fun packed =>
        weight[group]?.map fun groupWeight =>
          let packWeights := packing.packWeights.set pack (packed.map (loads.add · groupWeight))
          { packWeights := if items + 1 = groupsPerPack then packWeights.set pack none else packWeights
            packItems := packing.packItems.set pack (items + 1)
            packIndex := packing.packIndex.set group (some pack)
            rankInPack := packing.rankInPack.set group (some items) }

/-- None when an assertion fails or a division is by zero. -/
def balancedPacking (weight : List Load) (numPacks : Nat) : Option (List Nat × List Nat) :=
  let numGroups := weight.length
  if numPacks = 0 ∨ numGroups % numPacks ≠ 0 then none
  else
    let groupsPerPack := numGroups / numPacks
    if groupsPerPack = 1 then some (List.range numGroups, List.replicate numGroups 0)
    else
      let packing : Packing Load :=
        { packWeights := List.replicate numPacks (some loads.zero)
          packItems := List.replicate numPacks 0
          packIndex := List.replicate numGroups none
          rankInPack := List.replicate numGroups none }
      ((loads.argsortDescending.run weight).foldlM (loads.packGroup weight groupsPerPack)
        packing).bind fun packing =>
          (packing.packIndex.mapM id).bind fun packIndex =>
            (packing.rankInPack.mapM id).map fun rankInPack => (packIndex, rankInPack)

/-- One more replica for the expert with the largest load for each replica. -/
def replicate (weight : List Load) (state : List Slot × List Nat) (i : Nat) :
    Option (List Slot × List Nat) :=
  (argmin (fun a b => loads.lt b a) (List.zipWith loads.divide weight state.2)).bind fun redundant =>
    state.2[redundant]?.map fun count =>
      (state.1.set i (redundant, count), state.2.set redundant (count + 1))

/-- `phy2log` with `replica_idx`, and `logcnt`. -/
def replicateExperts (weight : List Load) (numPhy : Nat) : Option (List Slot × List Nat) :=
  let numLog := weight.length
  if numPhy < numLog then none
  else
    (List.range' numLog (numPhy - numLog)).foldlM (loads.replicate weight)
      ((List.range numPhy).map fun expert => (expert, 0), List.replicate numLog 1)

/-- `phy2pphy` and what is read through its inverse: the physical experts of a node in the order of its
GPUs. -/
def packNode (tokensPerMlog : List Load) (replicas : List Slot × List Nat) (gpus phyExpertsPerGpu : Nat) :
    Option (List Slot) :=
  (gather (List.zipWith loads.divide tokensPerMlog replicas.2) (replicas.1.map Prod.fst)).bind
    fun tokensPerPhy =>
      (loads.balancedPacking tokensPerPhy gpus).bind fun (packIndex, rankInPack) =>
        let phy2pphy := List.zipWith (fun pack rank => pack * phyExpertsPerGpu + rank) packIndex rankInPack
        (inverse phy2pphy).bind (gather replicas.1)

/-- `pphy2log` with `pphy_replicas_idx`, and `logcnt`. None when an assertion fails, a division is by
zero, or a row has no length. -/
def rebalanceExpertsHierarchical (weight : List Load)
    (numPhysicalExperts numGroups numNodes numGpus : Nat) : Option (List Slot × List Nat) :=
  let numLogicalExperts := weight.length
  if numGroups = 0 ∨ numLogicalExperts % numGroups ≠ 0 ∨ numNodes = 0 ∨ numGroups % numNodes ≠ 0 ∨
      numGpus % numNodes ≠ 0 ∨ numGpus = 0 ∨ numPhysicalExperts % numGpus ≠ 0 ∨
      numLogicalExperts / numNodes = 0 then none
  else
    let groupSize := numLogicalExperts / numGroups
    let groupsPerNode := numGroups / numNodes
    let phyExpertsPerGpu := numPhysicalExperts / numGpus
    let expertsPerNode := numLogicalExperts / numNodes
    let tokensPerGroup := (reshape weight numGroups groupSize).map loads.sum
    (loads.balancedPacking tokensPerGroup numNodes).bind fun (groupPackIndex, groupRankInPack) =>
      let log2mlog := (List.zipWith (fun pack rank => pack * groupsPerNode + rank) groupPackIndex
        groupRankInPack).flatMap fun group => (List.range groupSize).map (group * groupSize + ·)
      (inverse log2mlog).bind fun mlog2log =>
        (gather weight mlog2log).bind fun tokensPerMlog =>
          let nodes := reshape tokensPerMlog numNodes expertsPerNode
          (nodes.mapM fun tokens =>
            (loads.replicateExperts tokens (numPhysicalExperts / numNodes)).bind fun replicas =>
              (loads.packNode tokens replicas (numGpus / numNodes) phyExpertsPerGpu).map fun slots =>
                (slots, replicas.2)).bind fun packed =>
            let pphy2mlog := (packed.zipIdx.map fun (node, index) =>
              node.1.map fun slot => (slot.1 + index * expertsPerNode, slot.2)).flatten
            (pphy2mlog.mapM fun slot => mlog2log[slot.1]?.map fun expert => (expert, slot.2)).bind
              fun pphy2log =>
                (gather (packed.map Prod.snd).flatten log2mlog).map fun logcnt => (pphy2log, logcnt)

/-! Slots of a GPU. -/

/-- The variables of the first pass over a GPU, with the arrays it writes to. -/
structure Preserving where
  post : List Slot
  usedNewIndices : List Bool
  preservedPositions : List Bool

/-- The first pass, at one slot: the first physical expert not used yet with the same logical expert. -/
def preserveSlot (start : Nat) (oldLocal : List Int) (newLocal : List Slot) (state : Preserving)
    (slotIdx : Nat) : Option Preserving :=
  oldLocal[slotIdx]?.bind fun old =>
    let matches_ := List.zipWith (fun slot used => decide ((slot.1 : Int) = old) && !used) newLocal
      state.usedNewIndices
    if true ∈ matches_ then
      let firstIdx := argmax matches_
      newLocal[firstIdx]?.map fun slot =>
        { post := state.post.set (start + slotIdx) slot
          usedNewIndices := state.usedNewIndices.set firstIdx true
          preservedPositions := state.preservedPositions.set slotIdx true }
    else some state

/-- The second pass: what is left goes to the slots that are left, in order. -/
def fillSlots (start slotsPerGpu : Nat) (newLocal : List Slot) (state : Preserving) : Option (List Slot) :=
  let remainingMask := state.usedNewIndices.map not
  let fillMask := state.preservedPositions.map not
  let large := slotsPerGpu + 1
  let remainingIndices := loads.argsort.run (remainingMask.mapIdx fun i left => if left then i else large)
  let fillIndices := loads.argsort.run (fillMask.mapIdx fun i left => if left then i else large)
  let k := min (remainingMask.count true) (fillMask.count true)
  ((fillIndices.take k).zip (remainingIndices.take k)).foldlM
    (fun post (entry : Nat × Nat) => newLocal[entry.2]?.map fun slot => post.set (start + entry.1) slot)
    state.post

/-- One GPU: the slots from `start` on. -/
def preserveGpu (slots : List Slot) (slotsPerGpu : Nat) (oldPhy2log : List Int) (post : List Slot)
    (gpuIdx : Nat) : Option (List Slot) :=
  let start := gpuIdx * slotsPerGpu
  let oldLocal := (oldPhy2log.drop start).take slotsPerGpu
  let newLocal := (slots.drop start).take slotsPerGpu
  ((List.range slotsPerGpu).foldlM (preserveSlot start oldLocal newLocal)
    ⟨post, List.replicate slotsPerGpu false, List.replicate slotsPerGpu false⟩).bind
      (loads.fillSlots start slotsPerGpu newLocal)

/-- None when the old map has too few slots. -/
def preserveIntragpuSlots (slots : List Slot) (numRanks : Nat) (oldPhy2log : List Int) :
    Option (List Slot) :=
  if numRanks = 0 ∨ slots.length % numRanks ≠ 0 then some slots
  else
    let slotsPerGpu := slots.length / numRanks
    (List.range numRanks).foldlM (loads.preserveGpu slots slotsPerGpu oldPhy2log) slots

/-- `log2phy[expert, replica] = physical`; none out of range. -/
def writeReplica (log2phy : List (List Int)) (entry : Slot × Nat) : Option (List (List Int)) :=
  log2phy[entry.1.1]?.bind fun row =>
    if entry.1.2 < row.length then some (log2phy.set entry.1.1 (row.set entry.1.2 entry.2)) else none

/-- The three maps of a layer. -/
structure Maps where
  phy2log : List Nat
  log2phy : List (List Int)
  logcnt : List Nat

def rebalanceLayer (weight : List Load) (numReplicas numGroups numNodes numRanks : Nat)
    (oldGlobalExpertIndices : Option (List Int)) : Option Maps :=
  if numNodes = 0 then none
  else
    (if numGroups % numNodes = 0 then
        loads.rebalanceExpertsHierarchical weight numReplicas numGroups numNodes numRanks
      else loads.rebalanceExpertsHierarchical weight numReplicas 1 1 numRanks).bind fun (slots, logcnt) =>
      (match oldGlobalExpertIndices with
        | none => some slots
        | some oldPhy2log => loads.preserveIntragpuSlots slots numRanks oldPhy2log).bind fun slots =>
          let maxlogcnt := numReplicas - weight.length + 1
          (slots.zipIdx.foldlM writeReplica
            (List.replicate weight.length (List.replicate maxlogcnt (-1)))).map fun log2phy =>
              ⟨slots.map Prod.fst, log2phy, logcnt⟩

/-- The rows of the load matrix, and of the old map if there is one. -/
def rebalanceExperts (weight : List (List Load)) (numReplicas numGroups numNodes numRanks : Nat)
    (oldGlobalExpertIndices : Option (List (List Int))) : Option (List Maps) :=
  match oldGlobalExpertIndices with
  | none => weight.mapM fun row => loads.rebalanceLayer row numReplicas numGroups numNodes numRanks none
  | some old =>
    if old.length = weight.length then
      (weight.zip old).mapM fun (row, oldRow) =>
        loads.rebalanceLayer row numReplicas numGroups numNodes numRanks (some oldRow)
    else none

end Loads

end VllmDcu.ExpertBalance

import VllmDcu.BatchMoves
import VllmDcu.Striping

/-! Where a token's KV goes when context parallelism deals the tokens of a request out to ranks: the
checks of the block size, the rows of a block table with the manager's blocks they stand for, and the
slot of a position. -/
namespace VllmDcu.SlotMapping
open PersistentBatch BatchSlots BatchTracks BatchMoves List Option Function

structure ParallelConfig where
  prefillContextParallelSize : Nat
  decodeContextParallelSize : Nat
  cpKvCacheInterleaveSize : Nat
  dcpKvCacheInterleaveSize : Nat
  deriving DecidableEq

namespace ParallelConfig

/-- `validate_block_size`; none when the assertion fails. -/
def validateBlockSize (config : ParallelConfig) (blockSize : Nat) : Option ParallelConfig :=
  if 1 < config.decodeContextParallelSize then
    let config :=
      if 1 < config.dcpKvCacheInterleaveSize ∧
          config.cpKvCacheInterleaveSize ≠ config.dcpKvCacheInterleaveSize then
        { config with cpKvCacheInterleaveSize := config.dcpKvCacheInterleaveSize }
      else config
    if config.cpKvCacheInterleaveSize ≤ blockSize ∧ blockSize % config.cpKvCacheInterleaveSize = 0 then
      some config
    else none
  else some config

theorem validateBlockSize_accepts (config validated : ParallelConfig) (blockSize : Nat)
    (parallel : 1 < config.decodeContextParallelSize)
    (accepted : config.validateBlockSize blockSize = some validated) :
    validated.cpKvCacheInterleaveSize ≤ blockSize ∧
      blockSize % validated.cpKvCacheInterleaveSize = 0 := by
  unfold validateBlockSize at accepted
  rw [if_pos parallel] at accepted
  simp only at accepted
  generalize (if 1 < config.dcpKvCacheInterleaveSize ∧
      config.cpKvCacheInterleaveSize ≠ config.dcpKvCacheInterleaveSize then
    { config with cpKvCacheInterleaveSize := config.dcpKvCacheInterleaveSize } else config) =
      effective at accepted
  split at accepted
  · next fits =>
      cases accepted
      exact fits
  · contradiction

end ParallelConfig

/-- The sizes of a KV cache group's blocks, for the manager and for the kernel, and the ranks. -/
structure CpConfig where
  blockSize : Nat
  kernelBlockSize : Nat
  pcpWorldSize : Nat
  dcpWorldSize : Nat
  cpKvCacheInterleaveSize : Nat
  deriving DecidableEq

namespace CpConfig
variable (config : CpConfig)

def totalCpWorldSize : Nat := config.pcpWorldSize * config.dcpWorldSize

/-- None when the kernel's block size does not divide the manager's. -/
def init (maxNumBlocksPerReq : Nat) : Option BlockTable :=
  if config.kernelBlockSize = config.blockSize then some (BlockTable.init 1 maxNumBlocksPerReq)
  else if config.blockSize % config.kernelBlockSize ≠ 0 then none
  else
    let blocksPerKvBlock := config.blockSize / config.kernelBlockSize
    some (BlockTable.init blocksPerKvBlock (maxNumBlocksPerReq * blocksPerKvBlock))

/-- `block_table.np.ravel()[index]` -/
def ravel (table : BlockTable) (index : Nat) : Nat :=
  table.blockTable (index / table.maxNumBlocksPerReq) (index % table.maxNumBlocksPerReq)

/-- One entry of `slot_mapping`, on one rank. -/
def slot (table : BlockTable) (pcpRank dcpRank reqIndex position : Nat) : Int :=
  let totalCpRank := pcpRank * config.dcpWorldSize + dcpRank
  if 1 < config.totalCpWorldSize then
    let virtualBlockSize := config.kernelBlockSize * config.totalCpWorldSize
    let blockTableIndex := reqIndex * table.maxNumBlocksPerReq + position / virtualBlockSize
    let blockNumber := ravel table blockTableIndex
    let virtualBlockOffset := position % virtualBlockSize
    let mask := virtualBlockOffset / config.cpKvCacheInterleaveSize % config.totalCpWorldSize = totalCpRank
    let blockOffset :=
      virtualBlockOffset / (config.totalCpWorldSize * config.cpKvCacheInterleaveSize) *
        config.cpKvCacheInterleaveSize + virtualBlockOffset % config.cpKvCacheInterleaveSize
    if mask then ((blockNumber * config.kernelBlockSize + blockOffset : Nat) : Int) else -1
  else
    let blockTableIndex := reqIndex * table.maxNumBlocksPerReq + position / config.kernelBlockSize
    let blockNumber := ravel table blockTableIndex
    ((blockNumber * config.kernelBlockSize + position % config.kernelBlockSize : Nat) : Int)

def computeSlotMapping (table : BlockTable) (pcpRank dcpRank : Nat) (reqIndices positions : List Nat) :
    List Int :=
  List.zipWith (config.slot table pcpRank dcpRank) reqIndices positions

end CpConfig

/-- One request of `get_dcp_local_seq_lens`; the lower bound of the clip is where the subtraction stops. -/
def getDcpLocalSeqLen (seqLen dcpSize dcpRank cpKvCacheInterleaveSize : Nat) : Nat :=
  let base := seqLen / cpKvCacheInterleaveSize / dcpSize * cpKvCacheInterleaveSize
  let remainder := seqLen - base * dcpSize
  base + min (remainder - dcpRank * cpKvCacheInterleaveSize) cpKvCacheInterleaveSize

/-! Rows. -/

/-- A change of the rows of a block table. -/
inductive RowChange where
  | append (blockIds : List Nat) (rowIdx : Nat)
  | add (blockIds : List Nat) (rowIdx : Nat)
  | move (src tgt : Nat)
  | swap (src tgt : Nat)

namespace RowChange

def apply (table : BlockTable) : RowChange → Option BlockTable
  | append blockIds rowIdx => table.appendRow blockIds rowIdx
  | add blockIds rowIdx => table.addRow blockIds rowIdx
  | move src tgt => some (table.moveRow src tgt)
  | swap src tgt => some (table.swapRow src tgt)

/-- The same change to the manager's blocks that each row stands for. -/
def blocks (rows : Nat → List Nat) : RowChange → Nat → List Nat
  | append blockIds rowIdx => Function.update rows rowIdx (rows rowIdx ++ blockIds)
  | add blockIds rowIdx => Function.update rows rowIdx blockIds
  | move src tgt => Function.update rows tgt (rows src)
  | swap src tgt => swapEntries rows src tgt

end RowChange

/-- The blocks of each row after a number of changes. -/
def rowsAfter (changes : List RowChange) : Nat → List Nat := changes.foldl RowChange.blocks fun _ => []

/-- Every row lists the kernel's blocks of the manager's blocks it stands for. -/
structure Stands (table : BlockTable) (rows : Nat → List Nat) : Prop where
  row : ∀ i, BlockRow table i (rows i)
  fits : ∀ i, table.numBlocksPerRow i ≤ table.maxNumBlocksPerReq

theorem mapToKernelBlocks_append (first second : List Nat) (blocksPerKvBlock : Nat) :
    BlockTable.mapToKernelBlocks (first ++ second) blocksPerKvBlock =
      BlockTable.mapToKernelBlocks first blocksPerKvBlock ++
        BlockTable.mapToKernelBlocks second blocksPerKvBlock := by
  unfold BlockTable.mapToKernelBlocks
  split
  · rfl
  · exact flatMap_append

theorem blockRow_append {table table' : BlockTable} {ids blockIds : List Nat} {i : Nat}
    (row : BlockRow table i ids) (appended : table.appendRow blockIds i = some table') :
    BlockRow table' i (ids ++ blockIds) ∧ ∀ k ≠ i, ∀ ids, BlockRow table k ids → BlockRow table' k ids := by
  unfold BlockTable.appendRow at appended
  split at appended
  · next none =>
      cases appended
      rw [List.isEmpty_iff.mp none, append_nil]
      exact ⟨row, fun _ _ _ other => other⟩
  · simp only at appended
    split at appended
    · cases appended
      have start := row.count
      constructor
      · constructor
        · simp only [update_self]
          rw [mapToKernelBlocks_append, length_append, start]
        · intro k block found
          simp only [update_self, writeAt, start]
          change (BlockTable.mapToKernelBlocks (ids ++ blockIds) table.blocksPerKvBlock)[k]? =
            some block at found
          rw [mapToKernelBlocks_append] at found
          by_cases before : k < (BlockTable.mapToKernelBlocks ids table.blocksPerKvBlock).length
          · rw [getElem?_append_left before] at found
            rw [if_neg (by omega)]
            exact row.blocks k block found
          · rw [getElem?_append_right (by omega)] at found
            rw [if_pos (by omega), found, getD_some]
      · intro k elsewhere ids' other
        constructor
        · simp only [update_of_ne elsewhere]
          exact other.count
        · intro j block found
          simp only [update_of_ne elsewhere]
          exact other.blocks j block found
    · contradiction

theorem appendRow_fits {table table' : BlockTable} {blockIds : List Nat} {i : Nat}
    (fits : ∀ k, table.numBlocksPerRow k ≤ table.maxNumBlocksPerReq)
    (appended : table.appendRow blockIds i = some table') :
    (∀ k, table'.numBlocksPerRow k ≤ table'.maxNumBlocksPerReq) ∧
      table'.blocksPerKvBlock = table.blocksPerKvBlock := by
  unfold BlockTable.appendRow at appended
  split at appended
  · cases appended
    exact ⟨fits, rfl⟩
  · simp only at appended
    split at appended
    · next room =>
        cases appended
        refine ⟨?_, rfl⟩
        intro k
        by_cases same : k = i
        · subst same
          simp only [update_self]
          exact room
        · simp only [update_of_ne same]
          exact fits k
    · contradiction

/-- A change of the rows is one of the blocks they stand for. -/
theorem Stands.step {table table' : BlockTable} {rows : Nat → List Nat} (stands : Stands table rows)
    (change : RowChange) (changed : change.apply table = some table') :
    Stands table' (change.blocks rows) ∧ table'.blocksPerKvBlock = table.blocksPerKvBlock := by
  cases change with
  | append blockIds rowIdx =>
    have step := blockRow_append (stands.row rowIdx) changed
    obtain ⟨fits, same⟩ := appendRow_fits stands.fits changed
    refine ⟨⟨?_, fits⟩, same⟩
    intro i
    by_cases here : i = rowIdx
    · subst here
      simp only [RowChange.blocks, update_self]
      exact step.1
    · simp only [RowChange.blocks, update_of_ne here]
      exact step.2 i here _ (stands.row i)
  | add blockIds rowIdx =>
    have step := blockRow_add table table' blockIds rowIdx changed
    obtain ⟨fits, same⟩ := appendRow_fits (by
      intro k
      by_cases here : k = rowIdx
      · subst here
        simp only [update_self]
        exact Nat.zero_le _
      · simp only [update_of_ne here]
        exact stands.fits k) changed
    refine ⟨⟨?_, fits⟩, same⟩
    intro i
    by_cases here : i = rowIdx
    · subst here
      simp only [RowChange.blocks, update_self]
      exact step.1
    · simp only [RowChange.blocks, update_of_ne here]
      exact step.2 i here _ (stands.row i)
  | move src tgt =>
    cases changed
    refine ⟨⟨?_, ?_⟩, rfl⟩
    · intro i
      by_cases here : i = tgt
      · subst here
        simp only [RowChange.blocks, update_self]
        exact blockRow_move (stands.row src)
      · simp only [RowChange.blocks, update_of_ne here]
        exact blockRow_move_other here (stands.row i)
    · intro i
      change update table.numBlocksPerRow tgt (table.numBlocksPerRow src) i ≤ _
      by_cases here : i = tgt
      · subst here
        rw [update_self]
        exact stands.fits src
      · rw [update_of_ne here]
        exact stands.fits i
  | swap src tgt =>
    cases changed
    refine ⟨⟨?_, ?_⟩, rfl⟩
    · intro i
      rw [RowChange.blocks, swapEntries_apply]
      exact blockRow_swap (stands.row _)
    · intro i
      change swapEntries table.numBlocksPerRow src tgt i ≤ _
      rw [swapEntries_apply]
      exact stands.fits _

/-- All changes, from a table without blocks on. -/
theorem stands_run (changes : List RowChange) (first table : BlockTable)
    (empty : ∀ i, first.numBlocksPerRow i = 0)
    (ran : changes.foldlM RowChange.apply first = some table) :
    Stands table (rowsAfter changes) ∧ table.blocksPerKvBlock = first.blocksPerKvBlock := by
  induction changes using reverseRecOn generalizing table with
  | nil =>
    cases ran
    have bare : BlockTable.mapToKernelBlocks [] first.blocksPerKvBlock = [] := by
      unfold BlockTable.mapToKernelBlocks
      split <;> rfl
    refine ⟨⟨?_, ?_⟩, rfl⟩
    · intro i
      constructor
      · rw [empty]
        change 0 = (BlockTable.mapToKernelBlocks [] first.blocksPerKvBlock).length
        rw [bare]
        rfl
      · intro k block found
        change (BlockTable.mapToKernelBlocks [] first.blocksPerKvBlock)[k]? = some block at found
        rw [bare] at found
        cases found
    · intro i
      rw [empty]
      exact Nat.zero_le _
  | append_singleton changes change ih =>
    rw [foldlM_append] at ran
    obtain ⟨before, earlier, last⟩ := bind_eq_some_iff.mp ran
    rw [foldlM_cons] at last
    obtain ⟨after, changed, done⟩ := bind_eq_some_iff.mp last
    cases done
    obtain ⟨stands, same⟩ := ih before earlier
    obtain ⟨stands', same'⟩ := stands.step change changed
    unfold rowsAfter at stands' ⊢
    rw [foldl_append]
    exact ⟨stands', same'.trans same⟩

end VllmDcu.SlotMapping

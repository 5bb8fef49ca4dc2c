import VllmDcu.SlotMapping

/-! Slots are a placement of positions exactly when the runs that are dealt out to ranks fit into the
kernel's blocks. -/
namespace VllmDcu.SlotPlacement
open PersistentBatch BatchSlots SlotMapping Striping List Option

/-- The sizes that are accepted: ranks and blocks there are, the kernel's blocks divide the manager's,
and so do the runs. -/
structure Accepted (config : CpConfig) : Prop where
  pcp : 0 < config.pcpWorldSize
  dcp : 0 < config.dcpWorldSize
  block : 0 < config.blockSize
  kernel : config.blockSize % config.kernelBlockSize = 0
  interleave : config.cpKvCacheInterleaveSize ≤ config.blockSize
  runs : config.blockSize % config.cpKvCacheInterleaveSize = 0

/-- The positions that the blocks of a request have room for. -/
def Covered (config : CpConfig) (blocks : List Nat) (position : Nat) : Prop :=
  position / (config.blockSize * config.totalCpWorldSize) < blocks.length

instance (config : CpConfig) (blocks : List Nat) (position : Nat) :
    Decidable (Covered config blocks position) := by
  unfold Covered
  infer_instance

/-- The condition: one rank only, or whole runs in the kernel's blocks. -/
def RunsFit (config : CpConfig) : Prop :=
  config.totalCpWorldSize = 1 ∨ config.kernelBlockSize % config.cpKvCacheInterleaveSize = 0

/-- What the slots of a table are for the requests in its rows. -/
structure Placement (config : CpConfig) (table : BlockTable) (rows : Nat → List Nat) : Prop where
  once : ∀ req position, Covered config (rows req) position →
    ∃ pcpRank < config.pcpWorldSize, ∃ dcpRank < config.dcpWorldSize,
      config.slot table pcpRank dcpRank req position ≠ -1 ∧
        ∀ pcpRank' < config.pcpWorldSize, ∀ dcpRank' < config.dcpWorldSize,
          config.slot table pcpRank' dcpRank' req position ≠ -1 → pcpRank' = pcpRank ∧ dcpRank' = dcpRank
  inBlock : ∀ req position, Covered config (rows req) position →
    ∀ pcpRank < config.pcpWorldSize, ∀ dcpRank < config.dcpWorldSize,
      config.slot table pcpRank dcpRank req position ≠ -1 → ∃ block,
        (rows req)[position / (config.blockSize * config.totalCpWorldSize)]? = some block ∧
          (block * config.blockSize : Nat) ≤ config.slot table pcpRank dcpRank req position ∧
          config.slot table pcpRank dcpRank req position < ((block + 1) * config.blockSize : Nat)
  apart : ∀ req position req' position', Covered config (rows req) position →
    Covered config (rows req') position' →
    (req = req' ∧ (rows req).Nodup ∧ position ≠ position' ∨
      req ≠ req' ∧ ∀ block ∈ rows req, block ∉ rows req') →
    ∀ pcpRank < config.pcpWorldSize, ∀ dcpRank < config.dcpWorldSize,
      config.slot table pcpRank dcpRank req position ≠ -1 →
        config.slot table pcpRank dcpRank req position ≠ config.slot table pcpRank dcpRank req' position'
  lengths : config.pcpWorldSize = 1 → ∀ req seqLen,
    seqLen ≤ (rows req).length * (config.blockSize * config.totalCpWorldSize) →
    ∀ dcpRank < config.dcpWorldSize,
      ((List.range seqLen).map (config.slot table 0 dcpRank req)).filter (· ≠ -1) =
        (List.range (getDcpLocalSeqLen seqLen config.dcpWorldSize dcpRank
          config.cpKvCacheInterleaveSize)).map fun (j : Nat) =>
            ((table.blockTable req (j / config.kernelBlockSize) * config.kernelBlockSize +
              j % config.kernelBlockSize : Nat) : Int)

/-! The blocks of the kernel. -/

theorem mapToKernelBlocks_get (blocks : List Nat) (m k : Nat) (positive : 0 < m) :
    (BlockTable.mapToKernelBlocks blocks m)[k]? = blocks[k / m]?.map fun block => block * m + k % m := by
  unfold BlockTable.mapToKernelBlocks
  split
  · next one =>
      subst one
      rw [Nat.div_one, Nat.mod_one]
      simp only [Nat.mul_one, Nat.add_zero, Option.map_id']
  · induction blocks generalizing k with
    | nil => rfl
    | cons block blocks ih =>
      rw [flatMap_cons]
      by_cases inside : k < m
      · rw [getElem?_append_left (by simpa using inside), getElem?_map,
          getElem?_range inside, Nat.div_eq_of_lt inside, Nat.mod_eq_of_lt inside]
        rfl
      · have later : k = k - m + m := by omega
        rw [getElem?_append_right (by simpa using inside), length_map, length_range, ih]
        conv =>
          rhs
          rw [later, Nat.add_div_right _ positive, Nat.add_mod_right, getElem?_cons_succ]

/-- What is known of a table in use: the kernel's blocks in one of the manager's, and what the rows
stand for. -/
structure InUse (config : CpConfig) (table : BlockTable) (rows : Nat → List Nat) : Prop where
  accepted : Accepted config
  size : table.blocksPerKvBlock * config.kernelBlockSize = config.blockSize
  stands : Stands table rows

namespace InUse
variable {config : CpConfig} {table : BlockTable} {rows : Nat → List Nat}

section
variable (used : InUse config table rows)
include used

theorem world : 0 < config.totalCpWorldSize := Nat.mul_pos used.accepted.pcp used.accepted.dcp

theorem kernels : 0 < table.blocksPerKvBlock ∧ 0 < config.kernelBlockSize := by
  have block := used.accepted.block
  rw [← used.size] at block
  exact ⟨Nat.pos_of_mul_pos_right block, Nat.pos_of_mul_pos_left block⟩

theorem run : 0 < config.cpKvCacheInterleaveSize := by
  have divides := used.accepted.runs
  have block := used.accepted.block
  rcases Nat.eq_zero_or_pos config.cpKvCacheInterleaveSize with none | some_
  · rw [none, Nat.mod_zero] at divides
    omega
  · exact some_

/-- A kernel's block, read from the table directly and through the flat index. -/
theorem read (req k block : Nat) (found : (rows req)[k / table.blocksPerKvBlock]? = some block) :
    table.blockTable req k = block * table.blocksPerKvBlock + k % table.blocksPerKvBlock ∧
      CpConfig.ravel table (req * table.maxNumBlocksPerReq + k) =
        block * table.blocksPerKvBlock + k % table.blocksPerKvBlock := by
  have row := used.stands.row req
  have there := mapToKernelBlocks_get (rows req) table.blocksPerKvBlock k used.kernels.1
  rw [found, map_some] at there
  have direct := row.blocks k _ there
  refine ⟨direct, ?_⟩
  have inside : k < table.maxNumBlocksPerReq := by
    have fits := used.stands.fits req
    rw [row.count] at fits
    have := (List.getElem?_eq_some_iff.mp there).1
    omega
  rw [CpConfig.ravel, Nat.mul_comm req, Nat.mul_add_div (by omega), Nat.div_eq_of_lt inside, Nat.add_zero,
    Nat.mul_add_mod, Nat.mod_eq_of_lt inside, direct]

end

/-- On several ranks: the slot by the kernel's block and the place of the offset. -/
theorem slot_several (several : 1 < config.totalCpWorldSize) (pcpRank dcpRank req position : Nat) :
    config.slot table pcpRank dcpRank req position =
      if turn config.cpKvCacheInterleaveSize config.totalCpWorldSize
          (position % (config.kernelBlockSize * config.totalCpWorldSize)) =
            pcpRank * config.dcpWorldSize + dcpRank then
        ((CpConfig.ravel table (req * table.maxNumBlocksPerReq +
            position / (config.kernelBlockSize * config.totalCpWorldSize)) * config.kernelBlockSize +
          place config.cpKvCacheInterleaveSize config.totalCpWorldSize
            (position % (config.kernelBlockSize * config.totalCpWorldSize)) : Nat) : Int)
      else -1 := by
  unfold CpConfig.slot
  simp only [if_pos several]
  rfl

/-- The offset in the manager's virtual block, by the kernel's virtual blocks in it. -/
theorem offset_split (used : InUse config table rows) (position : Nat) :
    position / (config.kernelBlockSize * config.totalCpWorldSize) / table.blocksPerKvBlock =
        position / (config.blockSize * config.totalCpWorldSize) ∧
      position % (config.blockSize * config.totalCpWorldSize) =
        position / (config.kernelBlockSize * config.totalCpWorldSize) % table.blocksPerKvBlock *
          (config.kernelBlockSize * config.totalCpWorldSize) +
            position % (config.kernelBlockSize * config.totalCpWorldSize) := by
  have whole : config.blockSize * config.totalCpWorldSize =
      config.kernelBlockSize * config.totalCpWorldSize * table.blocksPerKvBlock := by
    rw [← used.size, Nat.mul_assoc, Nat.mul_comm table.blocksPerKvBlock]
  constructor
  · rw [whole, Nat.div_div_eq_div_mul]
  · rw [whole, Nat.mod_mul, Nat.add_comm, Nat.mul_comm (_ / _ % _)]

/-- Where the runs fit, the kernel's blocks do not show: the slot is the manager's block and the place of
the offset in its virtual block. -/
theorem slot_eq (used : InUse config table rows) (fit : RunsFit config) (req position : Nat)
    (covered : Covered config (rows req) position) :
    ∃ block, (rows req)[position / (config.blockSize * config.totalCpWorldSize)]? = some block ∧
      ∀ pcpRank < config.pcpWorldSize, ∀ dcpRank < config.dcpWorldSize,
        config.slot table pcpRank dcpRank req position =
          if turn config.cpKvCacheInterleaveSize config.totalCpWorldSize
              (position % (config.blockSize * config.totalCpWorldSize)) =
                pcpRank * config.dcpWorldSize + dcpRank then
            ((block * config.blockSize + place config.cpKvCacheInterleaveSize config.totalCpWorldSize
              (position % (config.blockSize * config.totalCpWorldSize)) : Nat) : Int)
          else -1 := by
  obtain ⟨outer, inner⟩ := used.offset_split position
  have found := getElem?_eq_getElem covered
  generalize (rows req)[position / (config.blockSize * config.totalCpWorldSize)] = block at found
  refine ⟨block, found, ?_⟩
  intro pcpRank pcpBound dcpRank dcpBound
  rw [← outer] at found
  obtain ⟨_, read⟩ := used.read req _ block found
  have size := used.size
  have positive := used.run
  rw [inner]
  have scaled (k : Nat) : block * config.blockSize + k % table.blocksPerKvBlock * config.kernelBlockSize =
      (block * table.blocksPerKvBlock + k % table.blocksPerKvBlock) * config.kernelBlockSize := by
    rw [← size, Nat.add_mul, Nat.mul_assoc]
  rcases Nat.lt_or_ge 1 config.totalCpWorldSize with several | few
  · rcases fit with one | fits
    · omega
    · obtain ⟨rounds, product⟩ := Nat.dvd_of_mod_eq_zero fits
      rw [Nat.mul_comm] at product
      rw [slot_several several, read]
      generalize position / (config.kernelBlockSize * config.totalCpWorldSize) = k
      generalize position % (config.kernelBlockSize * config.totalCpWorldSize) = offset
      have turned := @turn_shift config.cpKvCacheInterleaveSize config.totalCpWorldSize positive rounds
        (k % table.blocksPerKvBlock) offset
      have placed := @place_shift config.cpKvCacheInterleaveSize config.totalCpWorldSize positive
        used.world rounds (k % table.blocksPerKvBlock) offset
      rw [← product] at turned placed
      rw [turned, placed, ← Nat.add_assoc, scaled]
  · -- one rank: every position has its turn, at its own place
    have one : config.totalCpWorldSize = 1 := Nat.le_antisymm few used.world
    have pcp : config.pcpWorldSize = 1 := Nat.eq_one_of_mul_eq_one_right one
    have dcp : config.dcpWorldSize = 1 := Nat.eq_one_of_mul_eq_one_left one
    have turned (offset : Nat) : turn config.cpKvCacheInterleaveSize 1 offset =
        pcpRank * config.dcpWorldSize + dcpRank := by
      rw [turn, Nat.mod_one]
      have first : pcpRank = 0 := by omega
      have second : dcpRank = 0 := by omega
      rw [first, second, Nat.zero_mul]
    have placed (offset : Nat) : place config.cpKvCacheInterleaveSize 1 offset = offset := by
      rw [place, Nat.one_mul, Nat.mul_comm, Nat.div_add_mod]
    unfold CpConfig.slot
    simp only [one, Nat.lt_irrefl, if_false, turned, if_true, placed]
    rw [one, Nat.mul_one] at read
    rw [Nat.mul_one, read, ← Nat.add_assoc, scaled]

end InUse

section Fit
variable {config : CpConfig} {table : BlockTable} {rows : Nat → List Nat}
  (used : InUse config table rows) (fit : RunsFit config)
include used fit

/-- A rank's slot: its turn, and the block with the place. -/
theorem slot_local {req position : Nat} (covered : Covered config (rows req) position)
    {pcpRank : Nat} (pcpBound : pcpRank < config.pcpWorldSize)
    {dcpRank : Nat} (dcpBound : dcpRank < config.dcpWorldSize) :
    ∃ block, (rows req)[position / (config.blockSize * config.totalCpWorldSize)]? = some block ∧
      (config.slot table pcpRank dcpRank req position = -1 ∧
          turn config.cpKvCacheInterleaveSize config.totalCpWorldSize
            (position % (config.blockSize * config.totalCpWorldSize)) ≠
              pcpRank * config.dcpWorldSize + dcpRank ∨
        turn config.cpKvCacheInterleaveSize config.totalCpWorldSize
            (position % (config.blockSize * config.totalCpWorldSize)) =
              pcpRank * config.dcpWorldSize + dcpRank ∧
          config.slot table pcpRank dcpRank req position =
            ((block * config.blockSize +
              place config.cpKvCacheInterleaveSize config.totalCpWorldSize
                (position % (config.blockSize * config.totalCpWorldSize)) : Nat) : Int) ∧
          place config.cpKvCacheInterleaveSize config.totalCpWorldSize
            (position % (config.blockSize * config.totalCpWorldSize)) < config.blockSize) := by
  obtain ⟨block, found, slots⟩ := used.slot_eq fit req position covered
  refine ⟨block, found, ?_⟩
  rw [slots pcpRank pcpBound dcpRank dcpBound]
  by_cases own : turn config.cpKvCacheInterleaveSize config.totalCpWorldSize
      (position % (config.blockSize * config.totalCpWorldSize)) = pcpRank * config.dcpWorldSize + dcpRank
  · refine Or.inr ⟨own, if_pos own, ?_⟩
    obtain ⟨rounds, product⟩ := Nat.dvd_of_mod_eq_zero used.accepted.runs
    rw [Nat.mul_comm] at product
    have inside := Nat.mod_lt position (Nat.mul_pos used.accepted.block used.world)
    have below := @place_lt config.cpKvCacheInterleaveSize config.totalCpWorldSize used.run rounds
      (position % (config.blockSize * config.totalCpWorldSize))
    rw [← product] at below
    exact below inside
  · exact Or.inl ⟨if_neg own, own⟩

theorem once_of_fit (req position : Nat) (covered : Covered config (rows req) position) :
    ∃ pcpRank < config.pcpWorldSize, ∃ dcpRank < config.dcpWorldSize,
      config.slot table pcpRank dcpRank req position ≠ -1 ∧
        ∀ pcpRank' < config.pcpWorldSize, ∀ dcpRank' < config.dcpWorldSize,
          config.slot table pcpRank' dcpRank' req position ≠ -1 →
            pcpRank' = pcpRank ∧ dcpRank' = dcpRank := by
  have positive := used.accepted.dcp
  have below := @turn_lt config.cpKvCacheInterleaveSize config.totalCpWorldSize used.world
    (position % (config.blockSize * config.totalCpWorldSize))
  generalize turnEq : turn config.cpKvCacheInterleaveSize config.totalCpWorldSize
    (position % (config.blockSize * config.totalCpWorldSize)) = rank at below
  have pcpBound : rank / config.dcpWorldSize < config.pcpWorldSize :=
    Nat.div_lt_of_lt_mul (by rw [Nat.mul_comm]; exact below)
  have dcpBound := Nat.mod_lt rank positive
  have digits := Nat.div_add_mod rank config.dcpWorldSize
  refine ⟨rank / config.dcpWorldSize, pcpBound, rank % config.dcpWorldSize, dcpBound, ?_, ?_⟩
  · obtain ⟨block, _, ⟨_, other⟩ | ⟨_, slot, _⟩⟩ := slot_local used fit covered pcpBound dcpBound
    · rw [turnEq, Nat.mul_comm, digits] at other
      exact absurd rfl other
    · rw [slot]
      omega
  · intro pcpRank' pcpBound' dcpRank' dcpBound' isLocal
    obtain ⟨block, _, ⟨none, _⟩ | ⟨own, _, _⟩⟩ := slot_local used fit covered pcpBound' dcpBound'
    · exact absurd none isLocal
    · rw [turnEq] at own
      rw [own, Nat.mul_comm, Nat.mul_add_div positive, Nat.mul_add_mod, Nat.div_eq_of_lt dcpBound',
        Nat.mod_eq_of_lt dcpBound']
      exact ⟨rfl, rfl⟩

theorem inBlock_of_fit (req position : Nat) (covered : Covered config (rows req) position)
    (pcpRank : Nat) (pcpBound : pcpRank < config.pcpWorldSize)
    (dcpRank : Nat) (dcpBound : dcpRank < config.dcpWorldSize)
    (isLocal : config.slot table pcpRank dcpRank req position ≠ -1) : ∃ block,
      (rows req)[position / (config.blockSize * config.totalCpWorldSize)]? = some block ∧
        (block * config.blockSize : Nat) ≤ config.slot table pcpRank dcpRank req position ∧
        config.slot table pcpRank dcpRank req position < ((block + 1) * config.blockSize : Nat) := by
  obtain ⟨block, found, ⟨none, _⟩ | ⟨_, slot, below⟩⟩ := slot_local used fit covered pcpBound dcpBound
  · exact absurd none isLocal
  · refine ⟨block, found, ?_⟩
    rw [slot, Nat.add_mul, Nat.one_mul]
    omega

theorem apart_of_fit (req position req' position' : Nat) (covered : Covered config (rows req) position)
    (covered' : Covered config (rows req') position')
    (different : req = req' ∧ (rows req).Nodup ∧ position ≠ position' ∨
      req ≠ req' ∧ ∀ block ∈ rows req, block ∉ rows req')
    (pcpRank : Nat) (pcpBound : pcpRank < config.pcpWorldSize)
    (dcpRank : Nat) (dcpBound : dcpRank < config.dcpWorldSize)
    (isLocal : config.slot table pcpRank dcpRank req position ≠ -1) :
    config.slot table pcpRank dcpRank req position ≠
      config.slot table pcpRank dcpRank req' position' := by
  intro same
  obtain ⟨block, found, ⟨none, _⟩ | ⟨own, slot, below⟩⟩ := slot_local used fit covered pcpBound dcpBound
  · exact absurd none isLocal
  obtain ⟨block', found', ⟨none, _⟩ | ⟨own', slot', below'⟩⟩ := slot_local used fit
    covered' pcpBound dcpBound
  · exact absurd (same.trans none) isLocal
  rw [slot, slot', Int.ofNat_inj, Nat.mul_comm block, Nat.mul_comm block'] at same
  -- the block and the place of the slot
  have sameBlock : block = block' := by
    have quotient := congrArg (· / config.blockSize) same
    rw [Nat.mul_add_div used.accepted.block, Nat.mul_add_div used.accepted.block,
      Nat.div_eq_of_lt below, Nat.div_eq_of_lt below', Nat.add_zero, Nat.add_zero] at quotient
    exact quotient
  subst sameBlock
  have samePlace := Nat.add_left_cancel same
  rcases different with ⟨rfl, distinct, apart⟩ | ⟨_, disjoint⟩
  · apply apart
    have sameIndex := (getElem?_inj (List.getElem?_eq_some_iff.mp found).1 distinct).mp
      (found.trans found'.symm)
    have sameOffset := place_injective used.run _ _ (own.trans own'.symm) samePlace
    rw [← Nat.div_add_mod position (config.blockSize * config.totalCpWorldSize), sameIndex, sameOffset,
      Nat.div_add_mod]
  · exact disjoint block (mem_of_getElem? found) (mem_of_getElem? found')

theorem lengths_of_fit (pcp : config.pcpWorldSize = 1) (req seqLen : Nat)
    (covered : seqLen ≤ (rows req).length * (config.blockSize * config.totalCpWorldSize))
    (dcpRank : Nat) (dcpBound : dcpRank < config.dcpWorldSize) :
    ((List.range seqLen).map (config.slot table 0 dcpRank req)).filter (· ≠ -1) =
      (List.range (getDcpLocalSeqLen seqLen config.dcpWorldSize dcpRank
        config.cpKvCacheInterleaveSize)).map fun (j : Nat) =>
          ((table.blockTable req (j / config.kernelBlockSize) * config.kernelBlockSize +
            j % config.kernelBlockSize : Nat) : Int) := by
  have world : config.totalCpWorldSize = config.dcpWorldSize := by
    rw [CpConfig.totalCpWorldSize, pcp, Nat.one_mul]
  have isUsed (length : Nat) : getDcpLocalSeqLen length config.dcpWorldSize dcpRank
      config.cpKvCacheInterleaveSize = Striping.used config.cpKvCacheInterleaveSize
        config.totalCpWorldSize length dcpRank := by
    rw [world]
    rfl
  rw [isUsed]
  clear isUsed
  induction seqLen with
  | zero => rw [used_zero]; rfl
  | succ position ih =>
    have before := ih (by omega)
    have inside : Covered config (rows req) position := by
      apply Nat.div_lt_of_lt_mul
      rw [Nat.mul_comm]
      omega
    obtain ⟨rounds, product⟩ := Nat.dvd_of_mod_eq_zero used.accepted.runs
    rw [Nat.mul_comm] at product
    -- the turn and the place of the position, by its virtual block
    have digits := Nat.div_add_mod position (config.blockSize * config.totalCpWorldSize)
    rw [Nat.mul_comm] at digits
    have turned := @turn_shift config.cpKvCacheInterleaveSize config.totalCpWorldSize used.run rounds
      (position / (config.blockSize * config.totalCpWorldSize))
      (position % (config.blockSize * config.totalCpWorldSize))
    have placed := @place_shift config.cpKvCacheInterleaveSize config.totalCpWorldSize used.run
      used.world rounds (position / (config.blockSize * config.totalCpWorldSize))
      (position % (config.blockSize * config.totalCpWorldSize))
    rw [← product, digits] at turned placed
    rw [range_succ, map_append, filter_append, before,
      used_succ used.run position dcpRank (by rw [world]; exact dcpBound), turned]
    obtain ⟨block, found, ⟨none, other⟩ | ⟨own, slot, below⟩⟩ := slot_local used fit inside used.accepted.pcp dcpBound
    · rw [Nat.zero_mul, Nat.zero_add] at other
      rw [if_neg other, Nat.add_zero, map_singleton, none]
      exact append_nil _
    · rw [Nat.zero_mul, Nat.zero_add] at own
      have next : Striping.used config.cpKvCacheInterleaveSize config.totalCpWorldSize position dcpRank =
          position / (config.blockSize * config.totalCpWorldSize) * config.blockSize +
            place config.cpKvCacheInterleaveSize config.totalCpWorldSize
              (position % (config.blockSize * config.totalCpWorldSize)) := by
        rw [← placed, place_eq_used used.run used.world, turned, own]
      rw [if_pos own, range_succ, map_append, map_singleton, map_singleton, slot,
        filter_cons_of_pos (by rw [decide_eq_true_eq]; omega), filter_nil, next]
      congr 2
      -- the same slot through the table of the kernel's blocks
      generalize place config.cpKvCacheInterleaveSize config.totalCpWorldSize
        (position % (config.blockSize * config.totalCpWorldSize)) = offset at below
      generalize position / (config.blockSize * config.totalCpWorldSize) = index at found
      have size := used.size
      obtain ⟨kernels, kernelPositive⟩ := used.kernels
      have split : index * config.blockSize + offset =
          config.kernelBlockSize * (index * table.blocksPerKvBlock + offset / config.kernelBlockSize) +
            offset % config.kernelBlockSize := by
        have parts := Nat.div_add_mod offset config.kernelBlockSize
        rw [← size, Nat.mul_add, Nat.add_assoc, parts, ← Nat.mul_assoc, Nat.mul_comm]
      have few : offset / config.kernelBlockSize < table.blocksPerKvBlock := by
        apply Nat.div_lt_of_lt_mul
        rw [Nat.mul_comm, size]
        exact below
      have remainder := Nat.mod_lt offset kernelPositive
      have outer : (index * table.blocksPerKvBlock + offset / config.kernelBlockSize) /
          table.blocksPerKvBlock = index := by
        rw [Nat.mul_comm, Nat.mul_add_div kernels, Nat.div_eq_of_lt few, Nat.add_zero]
      have inner : (index * table.blocksPerKvBlock + offset / config.kernelBlockSize) %
          table.blocksPerKvBlock = offset / config.kernelBlockSize := by
        rw [Nat.mul_comm, Nat.mul_add_mod, Nat.mod_eq_of_lt few]
      rw [split, Nat.mul_add_div kernelPositive, Nat.div_eq_of_lt remainder, Nat.add_zero,
        Nat.mul_add_mod, Nat.mod_mod, (used.read req _ block (by rw [outer]; exact found)).1, inner,
        Nat.add_mul, Nat.mul_assoc, size, Nat.add_assoc, Nat.mul_comm (offset / _), Nat.div_add_mod]

theorem placement_of_fit : Placement config table rows := by
  constructor
  · exact once_of_fit used fit
  · exact inBlock_of_fit used fit
  · exact apart_of_fit used fit
  · exact lengths_of_fit used fit

end Fit

/-- Where a run crosses the end of a kernel's block, the first rank's places go beyond it: after the last
kernel's block of a manager's block they are in another block. -/
theorem overflow {config : CpConfig} {table : BlockTable} {rows : Nat → List Nat}
    (used : InUse config table rows) (unfit : ¬ RunsFit config) (req : Nat) (block : Nat) (rest : List Nat)
    (held : rows req = block :: rest) : ¬ Placement config table rows := by
  intro placement
  have world := used.world
  have run := used.run
  obtain ⟨kernels, kernelPositive⟩ := used.kernels
  have size := used.size
  have several : 1 < config.totalCpWorldSize := by
    have one : config.totalCpWorldSize ≠ 1 := fun equal => unfit (Or.inl equal)
    omega
  have left : 0 < config.kernelBlockSize % config.cpKvCacheInterleaveSize :=
    Nat.pos_of_ne_zero fun none => unfit (Or.inr none)
  have short := Nat.mod_lt config.kernelBlockSize run
  have parts := Nat.div_add_mod config.kernelBlockSize config.cpKvCacheInterleaveSize
  generalize config.kernelBlockSize / config.cpKvCacheInterleaveSize = rounds at parts
  generalize leftEq : config.kernelBlockSize % config.cpKvCacheInterleaveSize = partial_ at left short parts
  -- the first position of the round that the kernel's block cuts off, at its own end
  generalize offsetEq : (rounds * config.totalCpWorldSize + 0) * config.cpKvCacheInterleaveSize + partial_ =
    offset
  have inside : offset < config.kernelBlockSize * config.totalCpWorldSize := by
    have double : partial_ * 2 ≤ partial_ * config.totalCpWorldSize := Nat.mul_le_mul_left partial_ several
    rw [← offsetEq, ← parts, Nat.add_zero, Nat.add_mul, Nat.mul_comm config.cpKvCacheInterleaveSize,
      Nat.mul_right_comm]
    omega
  have turned := digits_turn rounds 0 partial_ world short
  have placed := digits_place rounds 0 partial_ world short
  rw [offsetEq] at turned placed
  rw [Nat.mul_comm rounds, parts] at placed
  generalize virtualEq : config.kernelBlockSize * config.totalCpWorldSize = virtual at inside
  have virtualPositive : 0 < virtual := by omega
  have outer : (virtual * (table.blocksPerKvBlock - 1) + offset) / virtual = table.blocksPerKvBlock - 1 := by
    rw [Nat.mul_add_div virtualPositive, Nat.div_eq_of_lt inside, Nat.add_zero]
  have inner : (virtual * (table.blocksPerKvBlock - 1) + offset) % virtual = offset := by
    rw [Nat.mul_add_mod, Nat.mod_eq_of_lt inside]
  have index : (virtual * (table.blocksPerKvBlock - 1) + offset) /
      (config.blockSize * config.totalCpWorldSize) = 0 := by
    rw [← (used.offset_split _).1, virtualEq, outer]
    exact Nat.div_eq_of_lt (by omega)
  have read := (used.read req (table.blocksPerKvBlock - 1) block (by
    rw [Nat.div_eq_of_lt (by omega), held]
    rfl)).2
  rw [Nat.mod_eq_of_lt (by omega)] at read
  have slot : config.slot table 0 0 req (virtual * (table.blocksPerKvBlock - 1) + offset) =
      (((block + 1) * config.blockSize : Nat) : Int) := by
    rw [InUse.slot_several several, virtualEq, inner, outer, turned, if_pos (by rw [Nat.zero_mul]), placed,
      read, ← Nat.succ_mul, ← size, ← Nat.mul_assoc]
    congr 2
    rw [Nat.add_mul, Nat.one_mul]
    omega
  obtain ⟨block', found, _, below⟩ := placement.inBlock req _ (by
    rw [Covered, index, held]
    exact Nat.succ_pos _) 0 used.accepted.pcp 0 used.accepted.dcp (by
      rw [slot]
      omega)
  rw [index, held] at found
  cases found
  rw [slot] at below
  exact Int.lt_irrefl _ below

theorem inUse_run {config : CpConfig} (accepted : Accepted config) (maxNumBlocksPerReq : Nat)
    (first table : BlockTable) (made : config.init maxNumBlocksPerReq = some first)
    (changes : List RowChange) (ran : changes.foldlM RowChange.apply first = some table) :
    InUse config table (rowsAfter changes) := by
  have started : (∀ i, first.numBlocksPerRow i = 0) ∧
      first.blocksPerKvBlock * config.kernelBlockSize = config.blockSize := by
    unfold CpConfig.init at made
    by_cases same : config.kernelBlockSize = config.blockSize
    · rw [if_pos same] at made
      cases made
      refine ⟨fun _ => rfl, ?_⟩
      rw [BlockTable.init, Nat.one_mul, same]
    · rw [if_neg same, if_neg (by rw [accepted.kernel]; decide)] at made
      cases made
      refine ⟨fun _ => rfl, ?_⟩
      exact Nat.div_mul_cancel (Nat.dvd_of_mod_eq_zero accepted.kernel)
  obtain ⟨stands, same⟩ := stands_run changes first table started.1 ran
  exact ⟨accepted, by rw [same, started.2], stands⟩

/-- In every table that is reached, the slots are a placement exactly when there is one rank only, the
kernel's blocks have whole runs, or no request has a block. -/
theorem placement_iff (config : CpConfig) (accepted : Accepted config) (maxNumBlocksPerReq : Nat)
    (first : BlockTable) (made : config.init maxNumBlocksPerReq = some first) (changes : List RowChange)
    (table : BlockTable) (ran : changes.foldlM RowChange.apply first = some table) :
    Placement config table (rowsAfter changes) ↔
      config.totalCpWorldSize = 1 ∨ config.kernelBlockSize % config.cpKvCacheInterleaveSize = 0 ∨
        ∀ req, rowsAfter changes req = [] := by
  have used := inUse_run accepted maxNumBlocksPerReq first table made changes ran
  constructor
  · intro placement
    by_cases fit : RunsFit config
    · exact fit.elim Or.inl fun whole => Or.inr (Or.inl whole)
    · refine Or.inr (Or.inr ?_)
      intro req
      cases held : rowsAfter changes req with
      | nil => rfl
      | cons block rest => exact absurd placement (overflow used fit req block rest held)
  · rintro (one | whole | none)
    · exact placement_of_fit used (Or.inl one)
    · exact placement_of_fit used (Or.inr whole)
    · have uncovered (req position : Nat) : ¬ Covered config (rowsAfter changes req) position := by
        rw [Covered, none req]
        exact Nat.not_lt_zero _
      constructor
      · intro req position covered
        exact absurd covered (uncovered req position)
      · intro req position covered
        exact absurd covered (uncovered req position)
      · intro req position _ _ covered
        exact absurd covered (uncovered req position)
      · intro _ req seqLen covered dcpRank _
        rw [none req, length_nil, Nat.zero_mul] at covered
        rw [Nat.eq_zero_of_le_zero covered]
        have start := @used_zero config.cpKvCacheInterleaveSize config.dcpWorldSize dcpRank
        change getDcpLocalSeqLen 0 _ _ _ = 0 at start
        rw [start]
        rfl

/-- Manager's blocks of four slots, kernel's blocks of two, runs of four on two ranks: the seventh
position of the first request goes to a block it does not have. -/
def narrowKernel : CpConfig where
  blockSize := 4
  kernelBlockSize := 2
  pcpWorldSize := 1
  dcpWorldSize := 2
  cpKvCacheInterleaveSize := 4

def narrowTable : BlockTable :=
  ((narrowKernel.init 1).bind fun first => [.add [0] 0].foldlM RowChange.apply first).getD
    (BlockTable.init 0 0)

theorem narrowKernel_notPlacement :
    ¬ Placement narrowKernel narrowTable (rowsAfter [.add [0] 0]) := by
  intro placement
  obtain ⟨block, found, _, below⟩ := placement.inBlock 0 6 (by decide) 0 (by decide) 0 (by decide)
    (by decide)
  cases found
  exact absurd below (by decide)

theorem narrowKernel_placement_iff :
    Placement narrowKernel narrowTable (rowsAfter [.add [0] 0]) ↔
      narrowKernel.totalCpWorldSize = 1 ∨
        narrowKernel.kernelBlockSize % narrowKernel.cpKvCacheInterleaveSize = 0 ∨
          ∀ req, rowsAfter [.add [0] 0] req = [] :=
  placement_iff narrowKernel ⟨by decide, by decide, by decide, by decide, by decide, by decide⟩ 1
    (BlockTable.init 2 2) rfl [.add [0] 0] narrowTable rfl

end VllmDcu.SlotPlacement

import VllmDcu.Dict

/-! The buddy allocator of pinned host memory: free lists by size, and the blocks handed out. -/
namespace VllmDcu

structure MemoryBlock where
  size : Nat
  addr : Int
deriving DecidableEq, Repr

inductive PoolError where
  | valueError (message : String)
  | keyError
deriving DecidableEq, Repr

abbrev FreeLists := Dict Nat (Dict Int MemoryBlock)

structure TensorMemoryPool where
  maxBlockSize : Nat
  minBlockSize : Nat
  baseAddress : Int
  freeLists : FreeLists
  allocatedBlocks : Dict Int MemoryBlock

namespace TensorMemoryPool

/-- `int.bit_length` -/
def bitLength (n : Nat) : Nat := if n = 0 then 0 else Nat.log2 n + 1

def roundToPowerOfTwo (size : Nat) : Nat := 1 <<< bitLength (size - 1)

def initializeFreeLists (minBlockSize size : Nat) (freeLists : FreeLists) : FreeLists :=
  if 0 < size ∧ minBlockSize ≤ size then
    initializeFreeLists minBlockSize (size / 2) (freeLists.set size .empty)
  else freeLists
termination_by size
decreasing_by omega

/-- `self.free_lists[block.size][block.addr] = block` -/
def insertFree (freeLists : FreeLists) (block : MemoryBlock) : Except PoolError FreeLists :=
  match freeLists.get? block.size with
  | some blocks => .ok (freeLists.set block.size (blocks.set block.addr block))
  | none => .error .keyError

/-- `del self.free_lists[block.size][block.addr]` -/
def deleteFree (freeLists : FreeLists) (block : MemoryBlock) : Except PoolError FreeLists :=
  match freeLists.get? block.size with
  | some blocks =>
    if blocks.contains block.addr then .ok (freeLists.set block.size (blocks.erase block.addr))
    else .error .keyError
  | none => .error .keyError

/-- A new pool over pinned memory at `baseAddress`. -/
def init (maxBlockSize minBlockSize baseAddress : Int) : Except PoolError TensorMemoryPool :=
  if maxBlockSize ≤ 0 ∨ minBlockSize ≤ 0 then .error (.valueError "Block sizes must be positive")
  else if maxBlockSize < minBlockSize then
    .error (.valueError "Max block size must be greater than min block size")
  else
    let maxSize := roundToPowerOfTwo maxBlockSize.toNat
    let minSize := roundToPowerOfTwo minBlockSize.toNat
    (insertFree (initializeFreeLists minSize maxSize .empty) ⟨maxSize, baseAddress⟩).map
      fun freeLists => ⟨maxSize, minSize, baseAddress, freeLists, .empty⟩

/-- The loop of `_split_block`: the upper half goes to its free list. -/
def splitBlock (minBlockSize requiredSize : Nat) (freeLists : FreeLists) (block : MemoryBlock) :
    Except PoolError (FreeLists × MemoryBlock) :=
  if block.size > requiredSize ∧ block.size / 2 ≥ minBlockSize then
    let buddySize := block.size / 2
    (insertFree freeLists ⟨buddySize, block.addr + buddySize⟩).bind fun freeLists =>
      splitBlock minBlockSize requiredSize freeLists ⟨buddySize, block.addr⟩
  else .ok (freeLists, block)
termination_by block.size
decreasing_by omega

/-- The loop of `allocate`: the last block of the first size from `currentSize` on that has one.
The sizes are positive, which the guard repeats. -/
def takeBlock (maxBlockSize : Nat) (freeLists : FreeLists) (currentSize : Nat) :
    Except PoolError (FreeLists × MemoryBlock) :=
  if 0 < currentSize ∧ currentSize ≤ maxBlockSize then
    match freeLists.get? currentSize with
    | none => .error .keyError
    | some blocks =>
      match blocks.entries.getLast? with
      | some (addr, block) => .ok (freeLists.set currentSize (blocks.erase addr), block)
      | none => takeBlock maxBlockSize freeLists (currentSize * 2)
  else .error (.valueError "Insufficient memory")
termination_by maxBlockSize + 1 - currentSize
decreasing_by omega

def allocate (self : TensorMemoryPool) (size : Int) : Except PoolError (TensorMemoryPool × Int) :=
  if size ≤ 0 then .error (.valueError "Allocation size must be positive")
  else
    let requiredSize := roundToPowerOfTwo (max size.toNat self.minBlockSize)
    if requiredSize > self.maxBlockSize then
      .error (.valueError "Requested size exceeds maximum block size")
    else
      (takeBlock self.maxBlockSize self.freeLists requiredSize).bind fun taken =>
        (splitBlock self.minBlockSize requiredSize taken.1 taken.2).map fun (freeLists, block) =>
          ({ self with
            freeLists := freeLists
            allocatedBlocks := self.allocatedBlocks.set block.addr block }, block.addr)

def maxMergeDepth : Nat := 30

def buddyAddr (baseAddress : Int) (block : MemoryBlock) : Int :=
  block.addr + if (block.addr - baseAddress) % (2 * block.size : Nat) = 0 then (block.size : Int)
    else -block.size

/-- The loop of `_merge_buddies`, with the merges that it may still make. -/
def mergeBuddies (baseAddress : Int) : Nat → FreeLists → MemoryBlock → Except PoolError FreeLists
  | 0, freeLists, block => insertFree freeLists block
  | depth + 1, freeLists, block =>
    match freeLists.get? block.size with
    | none => .error .keyError
    | some blocks =>
      match blocks.get? (buddyAddr baseAddress block) with
      | some buddy => (deleteFree freeLists buddy).bind fun freeLists =>
        mergeBuddies baseAddress depth freeLists
          ⟨block.size * 2, min block.addr buddy.addr⟩
      | none => insertFree freeLists block

def free (self : TensorMemoryPool) (addr : Int) : Except PoolError TensorMemoryPool :=
  match self.allocatedBlocks.get? addr with
  | none => .error (.valueError "Invalid address to free")
  | some block => (mergeBuddies self.baseAddress maxMergeDepth self.freeLists block).map
      fun freeLists =>
        { self with freeLists := freeLists, allocatedBlocks := self.allocatedBlocks.erase addr }

/-! Runs. -/

inductive Call where
  | allocate (size : Int)
  | free (addr : Int)

/-- A call that raises leaves the pool as it is: it raises before the first change. -/
def call (self : TensorMemoryPool) : Call → TensorMemoryPool
  | .allocate size => match self.allocate size with
    | .ok (next, _) => next
    | .error _ => self
  | .free addr => match self.free addr with
    | .ok next => next
    | .error _ => self

def run (self : TensorMemoryPool) (calls : List Call) : TensorMemoryPool := calls.foldl call self

/-! What a pool is made of. -/

def freeBlocks (self : TensorMemoryPool) : List MemoryBlock :=
  self.freeLists.values.flatMap Dict.values

def blocks (self : TensorMemoryPool) : List MemoryBlock :=
  self.freeBlocks ++ self.allocatedBlocks.values

end TensorMemoryPool
end VllmDcu

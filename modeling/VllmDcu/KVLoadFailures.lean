import VllmDcu.CacheManager
import Mathlib.Data.Finset.Sort

/-! Recovery from failed KV loads: the scan of the requests for invalid blocks, and
what it leaves of each request's computed tokens. The scan is bounded by
`num_cached_tokens`, which only the first scheduling of a request sets. -/
namespace VllmDcu.KVLoadFailures
open Requests FreeBlockQueue CacheManager List
variable {Digest : Type}

/-! The scan of one request. -/

/-- The variables of the loop over the blocks of one request. -/
structure BlockScan where
  isAffected : Bool
  markedInvalidBlock : Bool
  numComputedTokens : Int
  markedInvalidBlockIds : Finset BlockId
  totalAffectedTokens : Int
  blocksToEvict : Finset BlockId

/-- What the scan reads of the request and of its caller. -/
structure ScanArgs where
  invalidBlockIds : Finset BlockId
  blockSize : Nat
  evictBlocks : Bool
  reqNumComputedTokens : Int
  reqBlockIds : List BlockId

def scanBlock (args : ScanArgs) (scan : BlockScan) (blockId : BlockId) (idx : Nat) : BlockScan :=
  if blockId ∉ args.invalidBlockIds then scan
  else if blockId ∈ scan.markedInvalidBlockIds then { scan with isAffected := true }
  else
    let marked := insert blockId scan.markedInvalidBlockIds
    if scan.markedInvalidBlock then
      { scan with isAffected := true, markedInvalidBlockIds := marked }
    else
      let numComputedTokens : Int := (idx * args.blockSize : Nat)
      { isAffected := true
        markedInvalidBlock := true
        numComputedTokens := numComputedTokens
        markedInvalidBlockIds := marked
        totalAffectedTokens :=
          scan.totalAffectedTokens + (args.reqNumComputedTokens - numComputedTokens)
        blocksToEvict :=
          if args.evictBlocks then scan.blocksToEvict ∪ (args.reqBlockIds.drop idx).toFinset
          else scan.blocksToEvict }

def scanBlocks (args : ScanArgs) : BlockScan → List (BlockId × Nat) → BlockScan
  | scan, [] => scan
  | scan, (blockId, idx) :: rest => scanBlocks args (scanBlock args scan blockId idx) rest

/-- Blocks that hold the given number of tokens, by `(n + block_size - 1) // block_size`. -/
def numBlocks (numTokens : Int) (blockSize : Nat) : Int :=
  (numTokens + blockSize - 1) / blockSize

/-- Asynchronous loads do not count new tokens as computed; synchronous ones do,
so that the cached tokens stand for the loaded ones. -/
def reqNumComputedTokens (request : Request Digest) : Int :=
  match request.status with
  | .waitingForRemoteKvs => request.numComputedTokens
  | _ => request.numCachedTokens

/-- `zip(range(req_num_computed_blocks), req_block_ids)`. -/
def scannedBlocks (reqBlockIds : List BlockId) (count : Int) : List (BlockId × Nat) :=
  reqBlockIds.zipIdx.take count.toNat

/-! The scan of a list of requests. -/

structure LoadFailures where
  affectedReqIds : Finset ReqId
  totalAffectedTokens : Int
  blocksToEvict : Finset BlockId
  markedInvalidBlockIds : Finset BlockId

def LoadFailures.none : LoadFailures := ⟨∅, 0, ∅, ∅⟩

def scanArgs (invalidBlockIds : Finset BlockId) (blockSize : Nat) (evictBlocks : Bool)
    (request : Request Digest) (reqBlockIds : List BlockId) : ScanArgs :=
  ⟨invalidBlockIds, blockSize, evictBlocks, reqNumComputedTokens request, reqBlockIds⟩

def scanRequest (args : ScanArgs) (failures : LoadFailures) (numComputedTokens : Int) : BlockScan :=
  scanBlocks args
    ⟨false, false, numComputedTokens, failures.markedInvalidBlockIds, failures.totalAffectedTokens,
      failures.blocksToEvict⟩
    (scannedBlocks args.reqBlockIds (numBlocks args.reqNumComputedTokens args.blockSize))

/-- The request of one round of the loop and its counters. -/
def updateRequest (args : ScanArgs) (failures : LoadFailures) (request : Request Digest) :
    LoadFailures × Request Digest :=
  let scan := scanRequest args failures request.numComputedTokens
  let failures : LoadFailures :=
    { failures with
      totalAffectedTokens := scan.totalAffectedTokens
      blocksToEvict := scan.blocksToEvict
      markedInvalidBlockIds := scan.markedInvalidBlockIds }
  let scanned := { request with numComputedTokens := scan.numComputedTokens }
  if scan.isAffected then
    let affected := { failures with affectedReqIds := insert request.requestId failures.affectedReqIds }
    if scan.markedInvalidBlock then (affected, scanned)
    else
      -- Every invalid block is shared with an earlier request, which recomputes it.
      ({ affected with
          totalAffectedTokens := affected.totalAffectedTokens +
            (scanned.numComputedTokens - request.numCachedTokens) },
        { scanned with numComputedTokens := request.numCachedTokens })
  else (failures, scanned)

/-- `_update_requests_with_invalid_blocks` for the requests of a list that are
selected. It raises when the manager has not exactly one group. -/
def updateRequestsWithInvalidBlocks (manager : KVCacheManager Digest)
    (invalidBlockIds : Finset BlockId) (blockSize : Nat) (evictBlocks : Bool)
    (selected : Request Digest → Bool) :
    LoadFailures → List (Request Digest) → Option (LoadFailures × List (Request Digest))
  | failures, [] => some (failures, [])
  | failures, request :: rest =>
    if selected request then
      match manager.getBlocks request.requestId with
      | [reqBlockIds] =>
        let args := scanArgs invalidBlockIds blockSize evictBlocks request reqBlockIds
        let updated := updateRequest args failures request
        (updateRequestsWithInvalidBlocks manager invalidBlockIds blockSize evictBlocks selected
            updated.1 rest).map fun (failures, requests) => (failures, updated.2 :: requests)
      | _ => none
    else
      (updateRequestsWithInvalidBlocks manager invalidBlockIds blockSize evictBlocks selected
          failures rest).map fun (failures, requests) => (failures, request :: requests)

/-- The part of the scheduler that `_handle_invalid_blocks` reads and writes. -/
structure LoadState (Digest : Type) where
  blockSize : Nat
  recomputeKvLoadFailures : Bool
  kvCacheManager : KVCacheManager Digest
  skippedWaiting : List (Request Digest)
  running : List (Request Digest)
  failedRecvingKvReqIds : Finset ReqId

def loadsRemotely (request : Request Digest) : Bool :=
  decide (request.status = .waitingForRemoteKvs)

/-- `_handle_invalid_blocks`: the requests to skip in the output loop. -/
def handleInvalidBlocks [DecidableEq Digest] (state : LoadState Digest)
    (invalidBlockIds : Finset BlockId) : Option (Finset ReqId × LoadState Digest) :=
  match updateRequestsWithInvalidBlocks state.kvCacheManager invalidBlockIds state.blockSize false
      loadsRemotely .none state.skippedWaiting with
  | none => none
  | some (asyncFailures, skippedWaiting) =>
    match updateRequestsWithInvalidBlocks state.kvCacheManager invalidBlockIds state.blockSize true
        (fun _ => true) .none state.running with
    | none => none
    | some (syncFailures, running) =>
      let state := { state with skippedWaiting := skippedWaiting, running := running }
      if asyncFailures.affectedReqIds.card + syncFailures.affectedReqIds.card = 0 then
        some (∅, state)
      else if state.recomputeKvLoadFailures then
        let failed := state.failedRecvingKvReqIds ∪ asyncFailures.affectedReqIds
        some (syncFailures.affectedReqIds, { state with failedRecvingKvReqIds := failed })
      else
        -- A set of block ids has no order of its own; it is walked upwards here.
        (state.kvCacheManager.evictBlocks (syncFailures.blocksToEvict.sort (· ≤ ·))).map
          fun manager =>
            (asyncFailures.affectedReqIds ∪ syncFailures.affectedReqIds,
              { state with kvCacheManager := manager })

/-! What a scan finds. -/

theorem mem_scannedBlocks (reqBlockIds : List BlockId) (count : Int) (blockId : BlockId) (idx : Nat) :
    (blockId, idx) ∈ scannedBlocks reqBlockIds count ↔
      reqBlockIds[idx]? = some blockId ∧ idx < count.toNat := by
  unfold scannedBlocks
  rw [mem_take_iff_getElem]
  constructor
  · rintro ⟨position, bound, entry⟩
    simp only [getElem_zipIdx, zero_add, Prod.mk.injEq] at entry
    obtain ⟨rfl, rfl⟩ := entry
    have inside : position < count.toNat ∧ position < reqBlockIds.length := by
      simpa using bound
    exact ⟨getElem?_eq_getElem inside.2, inside.1⟩
  · rintro ⟨entry, bound⟩
    obtain ⟨inside, same⟩ := List.getElem?_eq_some_iff.mp entry
    exact ⟨idx, by simp [bound, inside], by simp [same]⟩

theorem scannedBlocks_sorted {reqBlockIds : List BlockId} {count : Int} :
    (scannedBlocks reqBlockIds count).Pairwise fun first second => first.2 ≤ second.2 := by
  apply List.Pairwise.take
  rw [pairwise_iff_getElem]
  intro first second firstBound secondBound ordered
  simpa using Nat.le_of_lt ordered

variable (args : ScanArgs) (scan : BlockScan) (blocks : List (BlockId × Nat))

theorem scanBlocks_affected :
    (scanBlocks args scan blocks).isAffected = true ↔
      scan.isAffected = true ∨ ∃ entry ∈ blocks, entry.1 ∈ args.invalidBlockIds := by
  induction blocks generalizing scan with
  | nil => simp [scanBlocks]
  | cons entry rest ih =>
    rw [scanBlocks, ih]
    unfold scanBlock
    by_cases invalid : entry.1 ∈ args.invalidBlockIds
    · split_ifs
      all_goals simp [invalid]
    · simp [invalid]

theorem scanBlocks_marked (blockId : BlockId) :
    blockId ∈ (scanBlocks args scan blocks).markedInvalidBlockIds ↔
      blockId ∈ scan.markedInvalidBlockIds ∨
        blockId ∈ args.invalidBlockIds ∧ ∃ idx, (blockId, idx) ∈ blocks := by
  induction blocks generalizing scan with
  | nil => simp [scanBlocks]
  | cons entry rest ih =>
    rw [scanBlocks, ih]
    have here : blockId ∈ (scanBlock args scan entry.1 entry.2).markedInvalidBlockIds ↔
        blockId ∈ scan.markedInvalidBlockIds ∨ blockId = entry.1 ∧ entry.1 ∈ args.invalidBlockIds := by
      unfold scanBlock
      by_cases invalid : entry.1 ∈ args.invalidBlockIds
      · rw [if_neg (not_not.mpr invalid)]
        by_cases shared : entry.1 ∈ scan.markedInvalidBlockIds
        · rw [if_pos shared]
          constructor
          · exact Or.inl
          · rintro (marked | ⟨rfl, _⟩)
            · exact marked
            · exact shared
        · split_ifs
          all_goals simp [invalid, or_comm]
      · simp [invalid]
    rw [here, or_assoc]
    apply or_congr_right
    constructor
    · rintro (⟨rfl, invalid⟩ | ⟨invalid, idx, member⟩)
      · exact ⟨invalid, entry.2, mem_cons_self⟩
      · exact ⟨invalid, idx, mem_cons_of_mem _ member⟩
    · rintro ⟨invalid, idx, member⟩
      rcases mem_cons.mp member with rfl | later
      · exact Or.inl ⟨rfl, invalid⟩
      · exact Or.inr ⟨invalid, idx, later⟩

/-- After the first block marked here the computed tokens stay. -/
theorem scanBlocks_started (started : scan.markedInvalidBlock = true) :
    (scanBlocks args scan blocks).markedInvalidBlock = true ∧
      (scanBlocks args scan blocks).numComputedTokens = scan.numComputedTokens := by
  induction blocks generalizing scan with
  | nil => exact ⟨started, rfl⟩
  | cons entry rest ih =>
    have here : (scanBlock args scan entry.1 entry.2).markedInvalidBlock = true ∧
        (scanBlock args scan entry.1 entry.2).numComputedTokens = scan.numComputedTokens := by
      unfold scanBlock
      split_ifs
      · exact ⟨started, rfl⟩
      · exact ⟨started, rfl⟩
      · exact ⟨started, rfl⟩
    exact ⟨(ih _ here.1).1, (ih _ here.1).2.trans here.2⟩

/-- Either every invalid block was marked before, or the computed tokens end at the
first one that was not. -/
theorem scanBlocks_first (sorted : blocks.Pairwise fun first second => first.2 ≤ second.2)
    (fresh : scan.markedInvalidBlock = false) :
    ((scanBlocks args scan blocks).markedInvalidBlock = false ∧
        (scanBlocks args scan blocks).numComputedTokens = scan.numComputedTokens ∧
        ∀ entry ∈ blocks, entry.1 ∈ args.invalidBlockIds → entry.1 ∈ scan.markedInvalidBlockIds) ∨
      ((scanBlocks args scan blocks).markedInvalidBlock = true ∧
        ∃ first ∈ blocks,
          (scanBlocks args scan blocks).numComputedTokens = (first.2 * args.blockSize : Nat) ∧
          ∀ entry ∈ blocks, entry.1 ∈ args.invalidBlockIds →
            entry.1 ∉ scan.markedInvalidBlockIds → first.2 ≤ entry.2) := by
  induction blocks generalizing scan with
  | nil => exact Or.inl ⟨fresh, rfl, by simp⟩
  | cons entry rest ih =>
    obtain ⟨least, restSorted⟩ := pairwise_cons.mp sorted
    by_cases skipped : entry.1 ∉ args.invalidBlockIds ∨ entry.1 ∈ scan.markedInvalidBlockIds
    · -- The entry leaves the marks and the computed tokens as they are.
      have same : (scanBlock args scan entry.1 entry.2).markedInvalidBlock = false ∧
          (scanBlock args scan entry.1 entry.2).numComputedTokens = scan.numComputedTokens ∧
          (scanBlock args scan entry.1 entry.2).markedInvalidBlockIds =
            scan.markedInvalidBlockIds := by
        unfold scanBlock
        by_cases invalid : entry.1 ∈ args.invalidBlockIds
        · have shared : entry.1 ∈ scan.markedInvalidBlockIds := by
            rcases skipped with valid | shared
            · exact absurd invalid valid
            · exact shared
          rw [if_neg (not_not.mpr invalid), if_pos shared]
          exact ⟨fresh, rfl, rfl⟩
        · rw [if_pos invalid]
          exact ⟨fresh, rfl, rfl⟩
      have covered (invalid : entry.1 ∈ args.invalidBlockIds) :
          entry.1 ∈ scan.markedInvalidBlockIds := by
        rcases skipped with valid | shared
        · exact absurd invalid valid
        · exact shared
      rcases ih (scanBlock args scan entry.1 entry.2) restSorted same.1 with
        ⟨unmarked, computed, shared⟩ | ⟨marked, first, member, computed, earliest⟩
      · refine Or.inl ⟨unmarked, computed.trans same.2.1, ?_⟩
        rintro other found invalid
        rcases mem_cons.mp found with rfl | later
        · exact covered invalid
        · rw [← same.2.2]
          exact shared other later invalid
      · refine Or.inr ⟨marked, first, mem_cons_of_mem _ member, computed, ?_⟩
        rintro other found invalid unmarked
        rcases mem_cons.mp found with rfl | later
        · exact absurd (covered invalid) unmarked
        · apply earliest other later invalid
          rwa [same.2.2]
    · push Not at skipped
      have here : (scanBlock args scan entry.1 entry.2).markedInvalidBlock = true ∧
          (scanBlock args scan entry.1 entry.2).numComputedTokens =
            (entry.2 * args.blockSize : Nat) := by
        simp [scanBlock, skipped.1, skipped.2, fresh]
      obtain ⟨marked, computed⟩ := scanBlocks_started args _ rest here.1
      refine Or.inr ⟨marked, entry, mem_cons_self, computed.trans here.2, ?_⟩
      intro other found _ _
      rcases mem_cons.mp found with rfl | later
      · exact Nat.le_refl _
      · exact least other later

theorem lt_numBlocks_iff (idx : Nat) (numTokens : Int) (blockSize : Nat) (positive : 0 < blockSize) :
    (idx : Int) < numBlocks numTokens blockSize ↔ ((idx * blockSize : Nat) : Int) < numTokens := by
  have pos : (0 : Int) < blockSize := Int.natCast_pos.mpr positive
  unfold numBlocks
  rw [← Int.add_one_le_iff, Int.le_ediv_iff_mul_le pos, Int.add_mul]
  omega

theorem tokens_le_of_numBlocks_le (idx : Nat) (numTokens : Int) (blockSize : Nat)
    (positive : 0 < blockSize) (beyond : numBlocks numTokens blockSize ≤ idx) :
    numTokens ≤ ((idx * blockSize : Nat) : Int) := by
  by_contra inside
  have := (lt_numBlocks_iff idx numTokens blockSize positive).mpr (by omega)
  omega

/-- An invalid block at the given position, among those that hold the first tokens. -/
def InvalidAt (invalidBlockIds : Finset BlockId) (reqBlockIds : List BlockId) (numTokens : Int)
    (blockSize : Nat) (idx : Nat) (blockId : BlockId) : Prop :=
  reqBlockIds[idx]? = some blockId ∧ (idx : Int) < numBlocks numTokens blockSize ∧
    blockId ∈ invalidBlockIds

def InvalidAmong (invalidBlockIds : Finset BlockId) (reqBlockIds : List BlockId) (numTokens : Int)
    (blockSize : Nat) : Prop :=
  ∃ idx blockId, InvalidAt invalidBlockIds reqBlockIds numTokens blockSize idx blockId

theorem invalidAt_iff {invalidBlockIds : Finset BlockId} {reqBlockIds : List BlockId}
    {numTokens : Int} {blockSize : Nat} {idx : Nat} {blockId : BlockId} :
    InvalidAt invalidBlockIds reqBlockIds numTokens blockSize idx blockId ↔
      (blockId, idx) ∈ scannedBlocks reqBlockIds (numBlocks numTokens blockSize) ∧
        blockId ∈ invalidBlockIds := by
  rw [mem_scannedBlocks, InvalidAt, Int.lt_toNat, and_assoc]

theorem invalidAmong_iff (invalidBlockIds : Finset BlockId) (reqBlockIds : List BlockId)
    (numTokens : Int) (blockSize : Nat) :
    InvalidAmong invalidBlockIds reqBlockIds numTokens blockSize ↔
      ∃ entry ∈ scannedBlocks reqBlockIds (numBlocks numTokens blockSize),
        entry.1 ∈ invalidBlockIds := by
  constructor
  · rintro ⟨idx, blockId, found⟩
    exact ⟨(blockId, idx), invalidAt_iff.mp found⟩
  · rintro ⟨entry, found⟩
    exact ⟨entry.2, entry.1, invalidAt_iff.mpr found⟩

/-! One round of the loop. -/

section Round
variable (args : ScanArgs) (failures : LoadFailures) (request : Request Digest)

theorem updateRequest_requestId :
    (updateRequest args failures request).2.requestId = request.requestId := by
  unfold updateRequest
  simp only
  split_ifs
  all_goals rfl

theorem updateRequest_affected (requestId : ReqId) :
    requestId ∈ (updateRequest args failures request).1.affectedReqIds ↔
      requestId ∈ failures.affectedReqIds ∨ requestId = request.requestId ∧
        InvalidAmong args.invalidBlockIds args.reqBlockIds args.reqNumComputedTokens args.blockSize := by
  rw [invalidAmong_iff]
  have affected := scanBlocks_affected args
    ⟨false, false, request.numComputedTokens, failures.markedInvalidBlockIds,
      failures.totalAffectedTokens, failures.blocksToEvict⟩
  simp only [Bool.false_eq_true, false_or] at affected
  rw [← affected, ← scanRequest]
  unfold updateRequest
  simp only
  split_ifs with hit
  · simp [hit, or_comm]
  · simp [hit, or_comm]
  · simp [hit]

theorem updateRequest_marked (blockId : BlockId) :
    blockId ∈ (updateRequest args failures request).1.markedInvalidBlockIds ↔
      blockId ∈ failures.markedInvalidBlockIds ∨ ∃ idx,
        InvalidAt args.invalidBlockIds args.reqBlockIds args.reqNumComputedTokens args.blockSize idx
          blockId := by
  have same : (updateRequest args failures request).1.markedInvalidBlockIds =
      (scanRequest args failures request.numComputedTokens).markedInvalidBlockIds := by
    unfold updateRequest
    simp only
    split_ifs
    all_goals rfl
  rw [same, scanRequest, scanBlocks_marked]
  apply or_congr_right
  simp only [invalidAt_iff]
  constructor
  · rintro ⟨invalid, idx, member⟩
    exact ⟨idx, member, invalid⟩
  · rintro ⟨idx, member, invalid⟩
    exact ⟨invalid, idx, member⟩

/-- An affected request is cut back to every invalid block that the scan did not
find marked, also beyond the scan's bound. -/
theorem updateRequest_cut (positive : 0 < args.blockSize)
    (sync : args.reqNumComputedTokens = request.numCachedTokens)
    (affected : InvalidAmong args.invalidBlockIds args.reqBlockIds args.reqNumComputedTokens
      args.blockSize) (idx : Nat) (blockId : BlockId)
    (entry : args.reqBlockIds[idx]? = some blockId) (invalid : blockId ∈ args.invalidBlockIds) :
    (updateRequest args failures request).2.numComputedTokens ≤ (idx * args.blockSize : Nat) ∨
      blockId ∈ failures.markedInvalidBlockIds := by
  have hit : (scanRequest args failures request.numComputedTokens).isAffected = true := by
    rw [scanRequest, scanBlocks_affected]
    exact Or.inr ((invalidAmong_iff _ _ _ _).mp affected)
  have cutoff : numBlocks args.reqNumComputedTokens args.blockSize ≤ idx →
      request.numCachedTokens ≤ (idx * args.blockSize : Nat) := by
    rw [← sync]
    exact tokens_le_of_numBlocks_le idx _ _ positive
  have inScan : (idx : Int) < numBlocks args.reqNumComputedTokens args.blockSize →
      (blockId, idx) ∈ scannedBlocks args.reqBlockIds
        (numBlocks args.reqNumComputedTokens args.blockSize) := by
    intro bound
    exact (mem_scannedBlocks _ _ _ _).mpr ⟨entry, Int.lt_toNat.mpr bound⟩
  unfold updateRequest
  simp only [hit, if_true]
  rcases scanBlocks_first args
      ⟨false, false, request.numComputedTokens, failures.markedInvalidBlockIds,
        failures.totalAffectedTokens, failures.blocksToEvict⟩ _
      scannedBlocks_sorted rfl with
    ⟨unmarked, _, shared⟩ | ⟨marked, first, member, computed, earliest⟩
  · rw [← scanRequest] at unmarked
    simp only [unmarked]
    by_cases bound : (idx : Int) < numBlocks args.reqNumComputedTokens args.blockSize
    · exact Or.inr (shared _ (inScan bound) invalid)
    · exact Or.inl (cutoff (by omega))
  · rw [← scanRequest] at marked computed
    simp only [marked, if_true, computed]
    by_cases seen : blockId ∈ failures.markedInvalidBlockIds
    · exact Or.inr seen
    · left
      have before : first.2 ≤ idx := by
        by_cases bound : (idx : Int) < numBlocks args.reqNumComputedTokens args.blockSize
        · exact earliest _ (inScan bound) invalid seen
        · have inside := ((mem_scannedBlocks _ _ _ _).mp member).2
          omega
      exact Int.ofNat_le.mpr (Nat.mul_le_mul_right _ before)

end Round

/-! The loop over the running requests. -/

/-- The block table of a request in the only group. -/
def blockTable (manager : KVCacheManager Digest) (requestId : ReqId) : List BlockId :=
  (manager.getBlocks requestId).headD []

def OneGroup (manager : KVCacheManager Digest) : Prop :=
  manager.coordinator.singleTypeManagers.length = 1

theorem oneGroup_blocks (manager : KVCacheManager Digest) (oneGroup : OneGroup manager)
    (requestId : ReqId) : manager.getBlocks requestId = [blockTable manager requestId] := by
  obtain ⟨single, same⟩ := length_eq_one_iff.mp oneGroup
  simp [blockTable, KVCacheManager.getBlocks, Coordinator.getBlocks, same]

section Loop
variable (manager : KVCacheManager Digest) (invalidBlockIds : Finset BlockId) (blockSize : Nat)
  (evictBlocks : Bool)

theorem updateRequests_some (oneGroup : OneGroup manager) (selected : Request Digest → Bool)
    (failures : LoadFailures) (requests : List (Request Digest)) :
    ∃ result, updateRequestsWithInvalidBlocks manager invalidBlockIds blockSize evictBlocks selected
      failures requests = some result := by
  induction requests generalizing failures with
  | nil => exact ⟨_, rfl⟩
  | cons request rest ih =>
    rw [updateRequestsWithInvalidBlocks]
    split
    · rw [oneGroup_blocks manager oneGroup]
      obtain ⟨result, tail⟩ := ih
        (updateRequest (scanArgs invalidBlockIds blockSize evictBlocks request
          (blockTable manager request.requestId)) failures request).1
      simp [tail]
    · obtain ⟨result, tail⟩ := ih failures
      simp [tail]

/-- A running request with an invalid block within the bound of its scan. -/
def Affected (request : Request Digest) : Prop :=
  InvalidAmong invalidBlockIds (blockTable manager request.requestId) request.numCachedTokens blockSize

/-- Request `k` gives the block up for recomputation. -/
def GivesUp (requests updated : List (Request Digest)) (k : Nat) (blockId : BlockId) : Prop :=
  ∃ request after, requests[k]? = some request ∧ updated[k]? = some after ∧
    ∃ idx : Nat, (blockTable manager request.requestId)[idx]? = some blockId ∧
      after.numComputedTokens ≤ (idx * blockSize : Nat)

theorem sync_tokens (request : Request Digest) (running : request.status = .running) :
    reqNumComputedTokens request = request.numCachedTokens := by
  simp [reqNumComputedTokens, running]

/-- What the loop does to the running requests, given the blocks marked before. -/
theorem updateRequests_spec (oneGroup : OneGroup manager) (positive : 0 < blockSize)
    (requests updated : List (Request Digest)) (failures final : LoadFailures)
    (running : ∀ request ∈ requests, request.status = .running)
    (result : updateRequestsWithInvalidBlocks manager invalidBlockIds blockSize evictBlocks
      (fun _ => true) failures requests = some (final, updated)) :
    (∀ requestId, requestId ∈ final.affectedReqIds ↔ requestId ∈ failures.affectedReqIds ∨
      ∃ request ∈ requests, request.requestId = requestId ∧
        Affected manager invalidBlockIds blockSize request) ∧
    ∀ (k : Nat) (request : Request Digest), requests[k]? = some request →
      ∃ after, updated[k]? = some after ∧ after.requestId = request.requestId ∧
        (Affected manager invalidBlockIds blockSize request →
          ∀ (idx : Nat) (blockId : BlockId),
            (blockTable manager request.requestId)[idx]? = some blockId →
            blockId ∈ invalidBlockIds →
            after.numComputedTokens ≤ (idx * blockSize : Nat) ∨
              blockId ∈ failures.markedInvalidBlockIds ∨
              ∃ earlier < k, GivesUp manager blockSize requests updated earlier blockId) := by
  induction requests generalizing failures final updated with
  | nil =>
    simp only [updateRequestsWithInvalidBlocks, Option.some.injEq, Prod.mk.injEq] at result
    obtain ⟨rfl, rfl⟩ := result
    simp
  | cons request rest ih =>
    simp only [updateRequestsWithInvalidBlocks, if_true, oneGroup_blocks manager oneGroup] at result
    obtain ⟨⟨tailFinal, tailUpdated⟩, tail, same⟩ := Option.map_eq_some_iff.mp result
    simp only [Prod.mk.injEq] at same
    obtain ⟨rfl, rfl⟩ := same
    generalize argsEq : scanArgs invalidBlockIds blockSize evictBlocks request
      (blockTable manager request.requestId) = args at tail ⊢
    have sync : args.reqNumComputedTokens = request.numCachedTokens := by
      rw [← argsEq]
      exact sync_tokens request (running request mem_cons_self)
    have affectedHere : InvalidAmong args.invalidBlockIds args.reqBlockIds
        args.reqNumComputedTokens args.blockSize ↔
          Affected manager invalidBlockIds blockSize request := by
      rw [sync, ← argsEq]
      rfl
    obtain ⟨tailAffected, tailRequests⟩ := ih _ _ _
      (fun other member => running other (mem_cons_of_mem _ member)) tail
    constructor
    · intro requestId
      rw [tailAffected, updateRequest_affected, affectedHere, or_assoc]
      apply or_congr_right
      simp only [mem_cons, exists_eq_or_imp]
      apply or_congr_left
      exact and_congr_left fun _ => eq_comm
    · intro k other found
      cases k with
      | zero =>
        simp only [getElem?_cons_zero, Option.some.injEq] at found
        subst found
        refine ⟨_, rfl, updateRequest_requestId args failures request, ?_⟩
        intro affected idx blockId entry invalid
        subst argsEq
        rcases updateRequest_cut _ failures request positive sync (affectedHere.mpr affected) idx
          blockId entry invalid with cut | marked
        · exact Or.inl cut
        · exact Or.inr (Or.inl marked)
      | succ k =>
        obtain ⟨after, present, sameId, cut⟩ := tailRequests k other found
        refine ⟨after, present, sameId, ?_⟩
        intro affected idx blockId entry invalid
        rcases cut affected idx blockId entry invalid with low | marked | ⟨earlier, before, gives⟩
        · exact Or.inl low
        · right
          rcases (updateRequest_marked args failures request blockId).mp marked with
            old | ⟨position, foundAt⟩
          · exact Or.inl old
          · -- The head marks the block now; it is cut back to it unless it was marked already.
            subst argsEq
            rcases updateRequest_cut _ failures request positive sync ⟨position, blockId, foundAt⟩
              position blockId foundAt.1 foundAt.2.2 with cutBack | old
            · exact Or.inr ⟨0, by omega, request, _, rfl, rfl, position, foundAt.1, cutBack⟩
            · exact Or.inl old
        · right; right
          obtain ⟨owner, ownerAfter, ownerAt, ownerAfterAt, gives⟩ := gives
          exact ⟨earlier + 1, by omega, owner, ownerAfter, ownerAt, ownerAfterAt, gives⟩

end Loop

/-! The recovery. -/

/-- A request of the running list with the number of tokens that were taken as
computed when it was last scheduled from a waiting queue. -/
structure RunningRequest (Digest : Type) where
  request : Request Digest
  isRunning : request.status = .running
  takenTokens : Int

/-- No running request is left with an invalid block among those it took as computed. -/
def Recovered (state : LoadState Digest) (seats : List (RunningRequest Digest))
    (invalidBlockIds : Finset BlockId) (result : Finset ReqId × LoadState Digest) : Prop :=
  ∀ (k : Nat) (seat : RunningRequest Digest), seats[k]? = some seat →
    ∃ after, result.2.running[k]? = some after ∧ after.requestId = seat.request.requestId ∧
      ∀ (idx : Nat) (blockId : BlockId),
        InvalidAt invalidBlockIds (blockTable state.kvCacheManager seat.request.requestId)
          seat.takenTokens state.blockSize idx blockId →
        seat.request.requestId ∈ result.1 ∧
          (after.numComputedTokens ≤ (idx * state.blockSize : Nat) ∨
            ∃ earlier < k, GivesUp state.kvCacheManager state.blockSize state.running
              result.2.running earlier blockId)

/-- A request with an invalid block among those it took as computed also has one
within its first `num_cached_tokens`. -/
def ScanCovers (state : LoadState Digest) (invalidBlockIds : Finset BlockId)
    (seat : RunningRequest Digest) : Prop :=
  let reqBlockIds := blockTable state.kvCacheManager seat.request.requestId
  InvalidAmong invalidBlockIds reqBlockIds seat.takenTokens state.blockSize →
    InvalidAmong invalidBlockIds reqBlockIds seat.request.numCachedTokens state.blockSize

/-- With one group and the recompute policy the recovery succeeds, and what it
returns is the affected running requests. -/
theorem handleInvalidBlocks_result [DecidableEq Digest] (state : LoadState Digest)
    (invalidBlockIds : Finset BlockId) (oneGroup : OneGroup state.kvCacheManager)
    (recompute : state.recomputeKvLoadFailures = true) :
    ∃ affected failures after, handleInvalidBlocks state invalidBlockIds = some (affected, after) ∧
      updateRequestsWithInvalidBlocks state.kvCacheManager invalidBlockIds state.blockSize true
        (fun _ => true) .none state.running = some (failures, after.running) ∧
      affected = failures.affectedReqIds := by
  obtain ⟨⟨asyncFailures, skippedWaiting⟩, async⟩ := updateRequests_some state.kvCacheManager
    invalidBlockIds state.blockSize false oneGroup loadsRemotely .none state.skippedWaiting
  obtain ⟨⟨syncFailures, running⟩, sync⟩ := updateRequests_some state.kvCacheManager
    invalidBlockIds state.blockSize true oneGroup (fun _ => true) .none state.running
  simp only [handleInvalidBlocks, async, sync, recompute, if_true]
  split_ifs with unaffected
  · have empty : syncFailures.affectedReqIds = ∅ := Finset.card_eq_zero.mp (by omega)
    exact ⟨∅, syncFailures, _, rfl, rfl, empty.symm⟩
  · exact ⟨_, syncFailures, _, rfl, rfl, rfl⟩

/-- Recovery from failed loads leaves no running request on invalid blocks exactly
when the scan of each request covers the blocks it took as computed. -/
theorem handleInvalidBlocks_recovers_iff [DecidableEq Digest] (state : LoadState Digest)
    (seats : List (RunningRequest Digest)) (invalidBlockIds : Finset BlockId)
    (positive : 0 < state.blockSize) (oneGroup : OneGroup state.kvCacheManager)
    (recompute : state.recomputeKvLoadFailures = true)
    (running : state.running = seats.map (·.request))
    (distinct : (state.running.map (·.requestId)).Nodup) :
    ∃ result, handleInvalidBlocks state invalidBlockIds = some result ∧
      (Recovered state seats invalidBlockIds result ↔
        ∀ seat ∈ seats, ScanCovers state invalidBlockIds seat) := by
  obtain ⟨affected, failures, after, handled, scanned, sameIds⟩ :=
    handleInvalidBlocks_result state invalidBlockIds oneGroup recompute
  refine ⟨(affected, after), handled, ?_⟩
  have allRunning : ∀ request ∈ state.running, request.status = .running := by
    rw [running]
    intro request member
    obtain ⟨seat, _, rfl⟩ := mem_map.mp member
    exact seat.isRunning
  obtain ⟨affectedIff, requests⟩ := updateRequests_spec state.kvCacheManager invalidBlockIds
    state.blockSize true oneGroup positive state.running after.running .none failures allRunning scanned
  have returned (seat : RunningRequest Digest) (member : seat ∈ seats) :
      seat.request.requestId ∈ affected ↔
        Affected state.kvCacheManager invalidBlockIds state.blockSize seat.request := by
    have present : seat.request ∈ state.running := by
      rw [running]
      exact mem_map_of_mem member
    rw [sameIds, affectedIff]
    constructor
    · rintro (none | ⟨request, found, same, hit⟩)
      · simp [LoadFailures.none] at none
      · rwa [inj_on_of_nodup_map distinct found present same] at hit
    · intro hit
      exact Or.inr ⟨seat.request, present, rfl, hit⟩
  have placed (k : Nat) (seat : RunningRequest Digest) (found : seats[k]? = some seat) :
      state.running[k]? = some seat.request := by
    simp [running, found]
  constructor
  · intro recovered seat member
    obtain ⟨k, found⟩ := mem_iff_getElem?.mp member
    obtain ⟨_, _, _, each⟩ := recovered k seat found
    rintro ⟨idx, blockId, invalid⟩
    exact (returned seat member).mp (each idx blockId invalid).1
  · intro covers k seat found
    have member := mem_of_getElem? found
    obtain ⟨next, present, sameId, cut⟩ := requests k seat.request (placed k seat found)
    refine ⟨next, present, sameId, ?_⟩
    intro idx blockId invalid
    have hit := covers seat member ⟨idx, blockId, invalid⟩
    refine ⟨(returned seat member).mpr hit, ?_⟩
    rcases cut hit idx blockId invalid.1 invalid.2.2 with low | marked | gives
    · exact Or.inl low
    · simp [LoadFailures.none] at marked
    · exact Or.inr gives

/-! How the two token counts of a running request come about. -/

def countCached (request : Request Digest) (numComputedTokens : Int) : Int :=
  if request.numCachedTokens < 0 then numComputedTokens else request.numCachedTokens

/-- The last lines of `schedule()` for a request it takes from a waiting queue. -/
def scheduleWaiting (request : Request Digest) (numComputedTokens : Int) : Option (Request Digest) :=
  match request.status with
  | .waiting | .preempted =>
    some { request with
      status := .running
      numComputedTokens := numComputedTokens
      numCachedTokens := countCached request numComputedTokens }
  | _ => none

/-- A request with the tokens it last took as computed. A finished asynchronous load
counts the cached tokens too; no other step touches either count. -/
inductive LifeStep (admits : Request Digest → Int → Prop) :
    Request Digest × Int → Request Digest × Int → Prop where
  | schedule {request scheduled : Request Digest} {taken : Int} (numComputedTokens : Int)
      (admitted : admits request numComputedTokens)
      (result : scheduleWaiting request numComputedTokens = some scheduled) :
      LifeStep admits (request, taken) (scheduled, numComputedTokens)
  | remoteLoaded {request loaded : Request Digest} {taken : Int}
      (counted : loaded.numCachedTokens = countCached request loaded.numComputedTokens) :
      LifeStep admits (request, taken) (loaded, taken)
  | elsewhere {request request' : Request Digest} {taken : Int}
      (same : request'.numCachedTokens = request.numCachedTokens) :
      LifeStep admits (request, taken) (request', taken)

/-! A request of six tokens in blocks of two. It is scheduled first without any
computed token, preempted, and resumed with four tokens that a connector loads. -/

def loadedArgs : RequestArgs Nat where
  requestId := 0
  promptTokenIds := some [1, 2, 3, 4, 5, 6]
  samplingParams := some ⟨4, 0, none, [], none, none⟩
  poolingParams := none
  clientIndex := 0
  arrivalTime := 0
  promptEmbeds := none
  mmFeatures := []
  loraRequest := none
  cacheSalt := none
  priority := 0
  structuredOutput := false
  blockHasher := none
  resumable := false

def createdRequest : Request Nat := (Request.init loadedArgs).get rfl

def idleManager : KVCacheManager Nat :=
  (KVCacheManager.init ⟨5, [.fullAttention ⟨⟨2, 1, 1, ⟨"float16", 2⟩, none⟩, 1, none, none⟩]⟩ 16 2
    false false false 1 1).get rfl

/-- The allocation for four external tokens and one new one. -/
def loadingManager : KVCacheManager Nat :=
  ((idleManager.allocateSlots createdRequest ⟨1, 0, none, 0, 4, false, 0⟩).get rfl).2

/-- The request after a scheduling that takes four tokens as computed, when one more
token has been counted for the running step. -/
def loadedRequest (numCachedTokens : Int) : Request Nat :=
  { createdRequest with
    status := .running, numComputedTokens := 5, numCachedTokens := numCachedTokens }

def loadedSeat (numCachedTokens : Int) : RunningRequest Nat := ⟨loadedRequest numCachedTokens, rfl, 4⟩

def loadedState (numCachedTokens : Int) : LoadState Nat :=
  ⟨2, true, loadingManager, [], [loadedRequest numCachedTokens], ∅⟩

theorem resumed_life : Relation.ReflTransGen (LifeStep fun _ _ => True) (createdRequest, 0)
    ((loadedSeat 0).request, (loadedSeat 0).takenTokens) := by
  let started : Request Nat :=
    { createdRequest with status := .running, numComputedTokens := 0, numCachedTokens := 0 }
  let preempted : Request Nat := { started with status := .preempted, numPreemptions := 1 }
  let resumed : Request Nat := { preempted with status := .running, numComputedTokens := 4 }
  have first : LifeStep (fun _ _ => True) (createdRequest, 0) (started, 0) := .schedule 0 trivial rfl
  have dropped : LifeStep (fun _ _ => True) (started, 0) (preempted, 0) := .elsewhere rfl
  have again : LifeStep (fun _ _ => True) (preempted, 0) (resumed, 4) := .schedule 4 trivial rfl
  have counted : LifeStep (fun _ _ => True) (resumed, 4) (loadedRequest 0, 4) := .elsewhere rfl
  exact (((Relation.ReflTransGen.single first).tail dropped).tail again).tail counted

theorem firstLoad_recovers :
    ∃ result, handleInvalidBlocks (loadedState 4) {2} = some result ∧
      Recovered (loadedState 4) [loadedSeat 4] {2} result := by
  obtain ⟨result, handled, recovers⟩ := handleInvalidBlocks_recovers_iff (loadedState 4)
    [loadedSeat 4] {2} (by decide) rfl rfl rfl (by decide)
  refine ⟨result, handled, recovers.mpr ?_⟩
  intro seat member
  obtain rfl := mem_singleton.mp member
  exact id

/-- The load of the resumed request fails in its second block, and nobody notices. -/
theorem resumedLoad_not_recovers :
    ¬ ∀ (state : LoadState Nat) (seats : List (RunningRequest Nat)) (invalidBlockIds : Finset BlockId),
      0 < state.blockSize → OneGroup state.kvCacheManager → state.recomputeKvLoadFailures = true →
      state.running = seats.map (·.request) → (state.running.map (·.requestId)).Nodup →
      (∀ seat ∈ seats, Relation.ReflTransGen (LifeStep fun _ _ => True) (createdRequest, 0)
        (seat.request, seat.takenTokens)) →
      ∃ result, handleInvalidBlocks state invalidBlockIds = some result ∧
        Recovered state seats invalidBlockIds result := by
  intro recovers
  obtain ⟨result, handled, recovered⟩ := recovers (loadedState 0) [loadedSeat 0] {2} (by decide) rfl
    rfl rfl (by decide) (by
      intro seat member
      obtain rfl := mem_singleton.mp member
      exact resumed_life)
  have nobody : (handleInvalidBlocks (loadedState 0) {2}).map Prod.fst = some ∅ := by decide
  rw [handled, Option.map_some, Option.some.injEq] at nobody
  obtain ⟨_, _, _, each⟩ := recovered 0 (loadedSeat 0) rfl
  have skipped := (each 1 2 ⟨by decide, by decide, by decide⟩).1
  rw [nobody] at skipped
  simp at skipped

end VllmDcu.KVLoadFailures

import Mathlib.Data.List.Dedup
import VllmDcu.Dict
import VllmDcu.Segments

/-! Rebalancing the experts of one layer over the ranks of a group. Every rank plans
its part from the old and the new assignment alone, posts its sends and receives, and
copies what has arrived. A slot without an expert holds -1. An array over local rows
is a function of the row, a tensor is addressed by its place in the list of tensors,
and an exception or a hang is `none`. -/
namespace VllmDcu.ExpertRebalance
open Segments

/-! Which ranks have an expert, and which need it. -/

/-- The distinct values in ascending order. -/
def unique (values : List Int) : List Int := values.dedup.insertionSort (· ≤ ·)

/-- By expert first, then by position. -/
def lexLe (a b : Int × Nat) : Prop := a.1 < b.1 ∨ a.1 = b.1 ∧ a.2 ≤ b.2

instance : DecidableRel lexLe := fun a b =>
  inferInstanceAs (Decidable (a.1 < b.1 ∨ a.1 = b.1 ∧ a.2 ≤ b.2))

/-- The distinct ranks in order of first appearance. -/
def firstAppearances : List Nat → List Nat
  | [] => []
  | rank :: rest => rank :: (firstAppearances rest).filter (· ≠ rank)

/-- The positions that hold a queried expert, each behind its expert. -/
def sortedRelevant (uniqueExperts indices : List Int) : List (Int × Nat) :=
  (indices.zipIdx.filter fun entry => entry.1 ∈ uniqueExperts).insertionSort lexLe

def uniqueRanks (numLocalExperts : Nat) (entries : List (Int × Nat)) : List Nat :=
  firstAppearances (entries.map fun entry => entry.2 / numLocalExperts)

/-- The body of the loops over the expert boundaries. Only an empty list has an empty segment. -/
def ranksByExpert (numLocalExperts : Nat) (uniqueExperts indices : List Int) :
    List (Int × List Nat) :=
  (segments Prod.fst (sortedRelevant uniqueExperts indices)).filterMap fun segment =>
    segment.head?.map fun first => (first.1, uniqueRanks numLocalExperts segment)

/-- Experts without a rank get an empty list. -/
def fillMissing (ranks : Dict Int (List Nat)) (uniqueExperts : List Int) : Dict Int (List Nat) :=
  uniqueExperts.foldl (fun ranks expert =>
    if ranks.contains expert then ranks else ranks.set expert []) ranks

/-- A rank with a local copy does not receive. -/
def getEpRanksWithExpertsBatch (expertIds : List Int) (numLocalExperts : Nat)
    (oldIndices newIndices : List Int) : Dict Int (List Nat) × Dict Int (List Nat) :=
  if expertIds.isEmpty then (Dict.empty, Dict.empty)
  else
    let uniqueExperts := unique expertIds
    let ranksToSend := (ranksByExpert numLocalExperts uniqueExperts oldIndices).foldl
      (fun ranks entry => ranks.set entry.1 entry.2) Dict.empty
    let ranksToRecv := (ranksByExpert numLocalExperts uniqueExperts newIndices).foldl
      (fun ranks entry => ranks.set entry.1
        (entry.2.filter fun rank => rank ∉ (ranksToSend.get? entry.1).getD [])) Dict.empty
    (fillMissing ranksToSend uniqueExperts, fillMissing ranksToRecv uniqueExperts)

/-! The plan of one rank. -/

def expertAt (indices : List Int) (numLocalExperts rank row : Nat) : Int :=
  indices[rank * numLocalExperts + row]?.getD (-1)

inductive P2POp where
  | isend (tensor row peer : Nat)
  | irecv (tensor row peer : Nat)
  deriving DecidableEq

/-- Behind the first `recvCount` entries the arrays of the source hold -1. -/
structure RecvMetadata where
  recvPrimaryMask : Nat → Bool
  recvCount : Nat
  recvExpertIds : List Int
  recvDstRows : List Nat

/-- The result of `move_to_buffer`, the operations it posts and the buffers as it leaves them
before anything has arrived. -/
structure MoveToBufferResult (Content : Type) where
  isUnchanged : Nat → Bool
  isReceivedLocally : Nat → Bool
  recvMetadata : RecvMetadata
  p2pOps : List P2POp
  buffers : Nat → Nat → Content

section Plan
variable (numLocalExperts : Nat) (oldIndices newIndices : List Int) (epRank : Nat)

def isUnchanged (row : Nat) : Bool :=
  expertAt oldIndices numLocalExperts epRank row == expertAt newIndices numLocalExperts epRank row

def canRecvLocal (row : Nat) : Bool :=
  (List.range numLocalExperts).any fun other =>
    expertAt oldIndices numLocalExperts epRank other ==
      expertAt newIndices numLocalExperts epRank row

def newValid (row : Nat) : Bool := expertAt newIndices numLocalExperts epRank row != -1

def isReceivedLocally (row : Nat) : Bool :=
  isUnchanged numLocalExperts oldIndices newIndices epRank row ||
    (newValid numLocalExperts newIndices epRank row &&
      canRecvLocal numLocalExperts oldIndices newIndices epRank row)

def needRecv (row : Nat) : Bool :=
  !isReceivedLocally numLocalExperts oldIndices newIndices epRank row &&
    newValid numLocalExperts newIndices epRank row

/-- Each distinct expert of some rows with the first of its rows. -/
def firstRows (expertIds : Nat → Int) (rows : List Nat) : List (Int × Nat) :=
  (unique (rows.map expertIds)).filterMap fun expert =>
    (rows.find? fun row => expertIds row == expert).map fun row => (expert, row)

/-- The experts this rank can send, each with its source row. -/
def sendRows : List (Int × Nat) :=
  firstRows (expertAt oldIndices numLocalExperts epRank)
    ((List.range numLocalExperts).filter fun row =>
      expertAt oldIndices numLocalExperts epRank row != -1)

/-- The experts this rank needs from others, each with its primary row. -/
def recvRows : List (Int × Nat) :=
  firstRows (expertAt newIndices numLocalExperts epRank)
    ((List.range numLocalExperts).filter
      (needRecv numLocalExperts oldIndices newIndices epRank))

/-- A stable sort by expert. -/
def argsort (rows : List (Int × Nat)) : List (Int × Nat) := rows.insertionSort fun a b => a.1 ≤ b.1

def moveLocally {Content : Type} (weights buffers : Nat → Nat → Content) :
    Nat → Nat → Content := fun tensor row =>
  if row < numLocalExperts ∧ isUnchanged numLocalExperts oldIndices newIndices epRank row = false ∧
      isReceivedLocally numLocalExperts oldIndices newIndices epRank row = true then
    match (sendRows numLocalExperts oldIndices epRank).find? fun entry =>
        entry.1 == expertAt newIndices numLocalExperts epRank row with
    | some entry => weights tensor entry.2
    | none => buffers tensor row
  else buffers tensor row

end Plan

/-- The sends of one expert: this sender's block of receivers, and one more if some are left. -/
def sendOps (numTensors : Nat) (ranksToSend ranksToRecv : List Nat) (epRank src : Nat) :
    Option (List P2POp) :=
  if ranksToSend.isEmpty || ranksToRecv.isEmpty then some []
  else do
    let numDstPerSender := ranksToRecv.length / ranksToSend.length
    let senderPos ← ranksToSend.idxOf? epRank
    let recvBegin := senderPos * numDstPerSender
    let recvRanks := (ranksToRecv.drop recvBegin).take numDstPerSender
    let remainderStart := ranksToSend.length * numDstPerSender
    let more := recvRanks ++ (ranksToRecv[remainderStart + senderPos]?).toList
    return more.flatMap fun dst => (List.range numTensors).map fun tensor => .isend tensor src dst

/-- The receives of one expert. -/
def recvOps (numTensors : Nat) (ranksToSend ranksToRecv : List Nat) (epRank dst : Nat) :
    Option (List P2POp) :=
  if ranksToSend.isEmpty || ranksToRecv.isEmpty then some []
  else do
    let numDstPerSender := ranksToRecv.length / ranksToSend.length
    let recverPos ← ranksToRecv.idxOf? epRank
    let remainderStart := ranksToSend.length * numDstPerSender
    let src ←
      if recverPos < remainderStart then ranksToSend[recverPos / numDstPerSender]?
      else ranksToSend[recverPos - remainderStart]?
    return (List.range numTensors).map fun tensor => .irecv tensor dst src

/-- The loop over the experts of one kind of operation. -/
def postOps (ops : List Nat → List Nat → Nat → Option (List P2POp))
    (ranks : Dict Int (List Nat) × Dict Int (List Nat)) (rows : List (Int × Nat)) :
    Option (List P2POp) :=
  (rows.mapM fun (entry : Int × Nat) => do
    let ranksToSend ← ranks.1.get? entry.1
    let ranksToRecv ← ranks.2.get? entry.1
    ops ranksToSend ranksToRecv entry.2).map List.flatten

def moveToBuffer {Content : Type} (numLocalExperts numTensors : Nat)
    (oldIndices newIndices : List Int) (epRank : Nat) (weights buffers : Nat → Nat → Content) :
    Option (MoveToBufferResult Content) := do
  let sends := argsort (sendRows numLocalExperts oldIndices epRank)
  let recvs := recvRows numLocalExperts oldIndices newIndices epRank
  let sortedRecvs := argsort recvs
  let sendPosts ← postOps (fun ranksToSend ranksToRecv src =>
      sendOps numTensors ranksToSend ranksToRecv epRank src)
    (getEpRanksWithExpertsBatch (sends.map Prod.fst) numLocalExperts oldIndices newIndices) sends
  let recvPosts ← postOps (fun ranksToSend ranksToRecv dst =>
      recvOps numTensors ranksToSend ranksToRecv epRank dst)
    (getEpRanksWithExpertsBatch (sortedRecvs.map Prod.fst) numLocalExperts oldIndices newIndices)
    sortedRecvs
  return {
    isUnchanged := isUnchanged numLocalExperts oldIndices newIndices epRank
    isReceivedLocally := isReceivedLocally numLocalExperts oldIndices newIndices epRank
    recvMetadata := {
      recvPrimaryMask := fun row => (recvs.map Prod.snd).contains row
      recvCount := recvs.length
      recvExpertIds := recvs.map Prod.fst
      recvDstRows := recvs.map Prod.snd }
    p2pOps := sendPosts ++ recvPosts
    buffers := moveLocally numLocalExperts oldIndices newIndices epRank weights buffers }

/-! Copying back. -/

/-- Where a value belongs in an ascending list, before equal values. -/
def searchsorted (sorted : List Int) (value : Int) : Nat :=
  (sorted.takeWhile fun other => other < value).length

/-- `w[dst].copy_(w[src])` for every tensor. -/
def copyRow {Content : Type} (weights : Nat → Nat → Content) (dst src : Nat) :
    Nat → Nat → Content :=
  fun tensor row => if row = dst then weights tensor src else weights tensor row

/-- A duplicate of a received expert with the primary row of that expert. -/
def matchDuplicate (prims : List (Int × Nat)) (expert : Int) : Option Nat :=
  match prims[searchsorted (prims.map Prod.fst) expert]? with
  | some entry => if entry.1 = expert then some entry.2 else none
  | none => none

def moveFromBuffer {Content : Type} (numLocalExperts : Nat)
    (weights buffers : Nat → Nat → Content) (isUnchanged isReceivedLocally : Nat → Bool)
    (recvMetadata : RecvMetadata) (newIndices : List Int) (epRank : Nat) :
    Nat → Nat → Content :=
  let copied : Nat → Nat → Content := fun tensor row =>
    if row < numLocalExperts ∧ isUnchanged row = false ∧
        (isReceivedLocally row || recvMetadata.recvPrimaryMask row) = true then
      buffers tensor row
    else weights tensor row
  if recvMetadata.recvCount = 0 then copied
  else
    let duplicates := (List.range numLocalExperts).filter fun row =>
      !isUnchanged row && !isReceivedLocally row &&
        (!recvMetadata.recvPrimaryMask row &&
          expertAt newIndices numLocalExperts epRank row != -1)
    let prims := argsort (recvMetadata.recvExpertIds.zip recvMetadata.recvDstRows)
    (duplicates.filterMap fun dst =>
      (matchDuplicate prims (expertAt newIndices numLocalExperts epRank dst)).map
        fun src => (dst, src)).foldl (fun weights (dst, src) => copyRow weights dst src) copied

/-! All ranks together. -/

def sendsTo (ops : List P2POp) (peer : Nat) : List (Nat × Nat) :=
  ops.filterMap fun
    | .isend tensor row other => if other = peer then some (tensor, row) else none
    | .irecv _ _ _ => none

def recvsFrom (ops : List P2POp) (peer : Nat) : List (Nat × Nat) :=
  ops.filterMap fun
    | .isend _ _ _ => none
    | .irecv tensor row other => if other = peer then some (tensor, row) else none

/-- For every ordered pair as many sends as receives, otherwise somebody waits for ever. -/
def Complete (size : Nat) (ops : Nat → List P2POp) : Prop :=
  ∀ source < size, ∀ target < size,
    (sendsTo (ops source) target).length = (recvsFrom (ops target) source).length

instance (size : Nat) (ops : Nat → List P2POp) : Decidable (Complete size ops) :=
  inferInstanceAs (Decidable (∀ source < size, ∀ target < size,
    (sendsTo (ops source) target).length = (recvsFrom (ops target) source).length))

/-- What lands at a rank: for every peer, its sends in their order go to the receives in theirs. -/
def landings {Content : Type} (size : Nat) (ops : Nat → List P2POp)
    (weights : Nat → Nat → Nat → Content) (rank : Nat) : List ((Nat × Nat) × Content) :=
  (List.range size).flatMap fun peer =>
    (recvsFrom (ops rank) peer).zip
      ((sendsTo (ops peer) rank).map fun (tensor, row) => weights peer tensor row)

def land {Content : Type} (buffers : Nat → Nat → Content)
    (landing : (Nat × Nat) × Content) : Nat → Nat → Content :=
  fun tensor row => if landing.1 = (tensor, row) then landing.2 else buffers tensor row

def batchIsendIrecv {Content : Type} (size : Nat) (ops : Nat → List P2POp)
    (weights buffers : Nat → Nat → Nat → Content) : Option (Nat → Nat → Nat → Content) :=
  if Complete size ops then
    some fun rank => (landings size ops weights rank).foldl land (buffers rank)
  else none

/-- The ranks run `move_to_buffer`, exchange, and run `move_from_buffer`. -/
def rebalance {Content : Type} (size numLocalExperts numTensors : Nat)
    (oldIndices newIndices : List Int) (weights buffers : Nat → Nat → Nat → Content) :
    Option (List (MoveToBufferResult Content) × (Nat → Nat → Nat → Content)) := do
  let results ← (List.range size).mapM fun rank =>
    moveToBuffer numLocalExperts numTensors oldIndices newIndices rank (weights rank)
      (buffers rank)
  let landed ← batchIsendIrecv size (fun rank => results[rank]?.elim [] fun result => result.p2pOps)
    weights (fun rank => results[rank]?.elim (buffers rank) fun result => result.buffers)
  return (results, fun rank =>
    match results[rank]? with
    | some result => moveFromBuffer numLocalExperts (weights rank) (landed rank)
        result.isUnchanged result.isReceivedLocally result.recvMetadata newIndices rank
    | none => weights rank)

end VllmDcu.ExpertRebalance

import Mathlib.Data.List.Sort
import Mathlib.Data.Finset.Insert
import VllmDcu.Dict
import VllmDcu.Requests

/-! The log of batch changes and the logits processors that replay it. `Num` is
the type of Python floats; an array of 32-bit floats stores `float32 x` for `x`.
A list object is named by its address, and what it holds is read in a heap. -/
namespace VllmDcu.LogitsProcessors
open Requests (Token ReqId)

abbrev ListRef := Nat
abbrev Heap := ListRef → List Token

inductive SamplingType where
  | greedy
  | random
  | randomSeed
  deriving DecidableEq

/-- `samplingType` is the cached property of the source. -/
structure SamplingParams (Num : Type) where
  samplingType : SamplingType
  temperature : Num
  topP : Num
  topK : Int
  minP : Num
  frequencyPenalty : Num
  presencePenalty : Num
  repetitionPenalty : Num
  logprobs : Option Int
  allowedTokenIds : Option (List Nat)
  badWordsTokenIds : Option (List (List Token))
  logitBias : Option (List (Token × Num))
  minTokens : Nat
  allStopTokenIds : List Token
  deriving DecidableEq

/-- `value or None`, and the truth test of an optional list: an empty list counts as none. -/
def orNone {Elem : Type} (value : Option (List Elem)) : Option (List Elem) :=
  match value with
  | some (first :: rest) => some (first :: rest)
  | _ => none

/-- `if value is not None: entries[key] = value` -/
def setIfPresent {Key Value : Type} [DecidableEq Key] (entries : Dict Key Value) (key : Key)
    (value : Option Value) : Dict Key Value :=
  match value with
  | some present => entries.set key present
  | none => entries

inductive MoveDirectionality where
  | unidirectional
  | swap
  deriving DecidableEq

structure AddedRequest (Num : Type) where
  index : Nat
  params : SamplingParams Num
  promptTokIds : Option (List Token)
  outputTokIds : ListRef
  deriving DecidableEq

structure MovedRequest where
  source : Nat
  target : Nat
  direct : MoveDirectionality
  deriving DecidableEq

structure BatchUpdate (Num : Type) where
  batchSize : Nat
  removed : List Nat
  moved : List MovedRequest
  added : List (AddedRequest Num)
  deriving DecidableEq

structure BatchUpdateBuilder (Num : Type) where
  removedList : List Nat
  isRemovedSorted : Bool
  added : List (AddedRequest Num)
  moved : List MovedRequest
  batchChanged : Bool
  deriving DecidableEq

namespace BatchUpdateBuilder
variable {Num : Type}

def init : BatchUpdateBuilder Num where
  removedList := []
  isRemovedSorted := false
  added := []
  moved := []
  batchChanged := false

/-- The removed indices in descending order. -/
def sortDescending (indices : List Nat) : List Nat := indices.insertionSort (· ≥ ·)

def ensureRemovedSorted (builder : BatchUpdateBuilder Num) : BatchUpdateBuilder Num :=
  if builder.isRemovedSorted then builder
  else { builder with
    removedList := sortDescending builder.removedList
    isRemovedSorted := true }

/-- Reading the property sorts the list as a side effect. -/
def removed (builder : BatchUpdateBuilder Num) : List Nat × BatchUpdateBuilder Num :=
  (builder.ensureRemovedSorted.removedList, builder.ensureRemovedSorted)

def removedAppend (builder : BatchUpdateBuilder Num) (index : Nat) :
    Option (BatchUpdateBuilder Num) :=
  if builder.isRemovedSorted then none
  else some { builder with
    removedList := builder.removedList ++ [index]
    batchChanged := true }

def hasRemoved (builder : BatchUpdateBuilder Num) : Bool := !builder.removedList.isEmpty

def peekRemoved (builder : BatchUpdateBuilder Num) : Option Nat × BatchUpdateBuilder Num :=
  if builder.hasRemoved then
    (builder.ensureRemovedSorted.removedList.getLast?, builder.ensureRemovedSorted)
  else (none, builder)

def popRemoved (builder : BatchUpdateBuilder Num) : Option Nat × BatchUpdateBuilder Num :=
  if builder.hasRemoved then
    let sorted := builder.ensureRemovedSorted
    (sorted.removedList.getLast?, { sorted with removedList := sorted.removedList.dropLast })
  else (none, builder)

def getAndReset (builder : BatchUpdateBuilder Num) (batchSize : Nat) :
    Option (BatchUpdate Num) × BatchUpdateBuilder Num :=
  let unsorted := { builder with isRemovedSorted := false, batchChanged := false }
  if builder.removedList.isEmpty && builder.moved.isEmpty && builder.added.isEmpty then
    (none, unsorted)
  else
    (some {
      batchSize
      removed := builder.removedList
      moved := builder.moved
      added := builder.added },
      { unsorted with removedList := [], moved := [], added := [] })

end BatchUpdateBuilder

section Updates
variable {Num State : Type}

/-! `process_dict_updates`. The second component of a result tells whether an
entry was touched; the states of the two dictionaries are never falsy. -/

def addEntry (newState : AddedRequest Num → Option State) (entries : Dict Nat State × Bool)
    (added : AddedRequest Num) : Dict Nat State × Bool :=
  match newState added with
  | some state => (entries.1.set added.index state, true)
  | none =>
    if entries.1.contains added.index then (entries.1.erase added.index, true)
    else (entries.1.erase added.index, entries.2)

def removeEntry (entries : Dict Nat State × Bool) (index : Nat) : Dict Nat State × Bool :=
  (entries.1.erase index, entries.2 || entries.1.contains index)

def moveEntry (entries : Dict Nat State × Bool) (moved : MovedRequest) : Dict Nat State × Bool :=
  let aEntry := entries.1.get? moved.source
  let rest := entries.1.erase moved.source
  let bEntry := rest.get? moved.target
  let cleared := rest.erase moved.target
  let placed := setIfPresent cleared moved.target aEntry
  (if moved.direct = .swap then setIfPresent placed moved.source bEntry else placed,
    entries.2 || aEntry.isSome || bEntry.isSome)

def processDictUpdates (newState : AddedRequest Num → Option State) (entries : Dict Nat State)
    (batchUpdate : Option (BatchUpdate Num)) : Dict Nat State × Bool :=
  match batchUpdate with
  | none => (entries, false)
  | some update =>
    let grown := update.added.foldl (addEntry newState) (entries, false)
    if grown.1.entries.isEmpty then grown
    else update.moved.foldl moveEntry (update.removed.foldl removeEntry grown)

end Updates

/-! Logit bias. -/

structure LogitBiasLogitsProcessor (Num : Type) where
  biases : Dict Nat (List (Token × Num))
  logitsSlice : List (Nat × Token)
  biasTensor : List Num

namespace LogitBiasLogitsProcessor
variable {Num : Type}

def init : LogitBiasLogitsProcessor Num := ⟨Dict.empty, [], []⟩

def newState (added : AddedRequest Num) : Option (List (Token × Num)) :=
  orNone added.params.logitBias

def sliceOf (biases : Dict Nat (List (Token × Num))) : List (Nat × Token) :=
  biases.entries.flatMap fun entry => entry.2.map fun bias => (entry.1, bias.1)

def biasesOf (biases : Dict Nat (List (Token × Num))) : List Num :=
  biases.entries.flatMap fun entry => entry.2.map Prod.snd

/-- The bias tensor is stored in 32-bit floats. -/
def updateState (float32 : Num → Num) (processor : LogitBiasLogitsProcessor Num)
    (batchUpdate : Option (BatchUpdate Num)) : LogitBiasLogitsProcessor Num :=
  let updated := processDictUpdates newState processor.biases batchUpdate
  if updated.2 then
    { biases := updated.1
      logitsSlice := sliceOf updated.1
      biasTensor := (biasesOf updated.1).map float32 }
  else { processor with biases := updated.1 }

end LogitBiasLogitsProcessor

/-! Minimal output length. An entry holds the list object, not its tokens. -/

structure MinTokensState where
  minToks : Nat
  outputTokIds : ListRef
  stopTokIds : List Token
  deriving DecidableEq

structure MinTokensLogitsProcessor where
  minToks : Dict Nat MinTokensState
  logitsSlice : List (Nat × Token)

namespace MinTokensLogitsProcessor
variable {Num : Type}

def init : MinTokensLogitsProcessor := ⟨Dict.empty, []⟩

def addRequest (heap : Heap) (added : AddedRequest Num) : Option MinTokensState :=
  if added.params.minTokens = 0 ∨ (heap added.outputTokIds).length ≥ added.params.minTokens then none
  else some {
    minToks := added.params.minTokens
    outputTokIds := added.outputTokIds
    stopTokIds := added.params.allStopTokenIds }

def attained (heap : Heap) (state : MinTokensState) : Bool :=
  decide ((heap state.outputTokIds).length ≥ state.minToks)

def toRemove (heap : Heap) (minToks : Dict Nat MinTokensState) : List Nat :=
  (minToks.entries.filter fun entry => attained heap entry.2).map Prod.fst

def sliceOf (minToks : Dict Nat MinTokensState) : List (Nat × Token) :=
  minToks.entries.flatMap fun entry => entry.2.stopTokIds.map fun token => (entry.1, token)

def updateState (heap : Heap) (processor : MinTokensLogitsProcessor)
    (batchUpdate : Option (BatchUpdate Num)) : MinTokensLogitsProcessor :=
  let updated := processDictUpdates (addRequest heap) processor.minToks batchUpdate
  let reached := toRemove heap updated.1
  let remaining := reached.foldl Dict.erase updated.1
  if updated.2 || !reached.isEmpty then
    { minToks := remaining
      logitsSlice := sliceOf remaining }
  else { processor with minToks := remaining }

end MinTokensLogitsProcessor

/-! Min-p, on a device whose tensor is a copy of the array in host memory. -/

structure MinPLogitsProcessor (Num : Type) where
  minPCount : Int
  minPCpu : Nat → Num
  minP : List Num

namespace MinPLogitsProcessor
variable {Num : Type} [Zero Num] [DecidableEq Num]

def init : MinPLogitsProcessor Num := ⟨0, fun _ => 0, []⟩

/-- The comparison with the stored value takes the request's value as a 32-bit float, the truth
tests read the request's value itself. -/
def addMinP (float32 : Num → Num) (state : MinPLogitsProcessor Num × Bool)
    (added : AddedRequest Num) : MinPLogitsProcessor Num × Bool :=
  let minP := added.params.minP
  let minPBefore := state.1.minPCpu added.index
  if minPBefore ≠ float32 minP then
    ({ state.1 with
        minPCpu := Function.update state.1.minPCpu added.index (float32 minP)
        minPCount :=
          if minP ≠ 0 ∧ minPBefore = 0 then state.1.minPCount + 1
          else if minP = 0 ∧ minPBefore ≠ 0 then state.1.minPCount - 1
          else state.1.minPCount }, true)
  else state

def removeMinP (processor : MinPLogitsProcessor Num) (index : Nat) : MinPLogitsProcessor Num :=
  if processor.minPCpu index ≠ 0 then
    { processor with
      minPCpu := Function.update processor.minPCpu index 0
      minPCount := processor.minPCount - 1 }
  else processor

def moveMinP (state : MinPLogitsProcessor Num × Bool) (moved : MovedRequest) :
    MinPLogitsProcessor Num × Bool :=
  let minPA := state.1.minPCpu moved.source
  let minPB := state.1.minPCpu moved.target
  let written :=
    if minPA ≠ minPB then
      let forward := Function.update state.1.minPCpu moved.target minPA
      if moved.direct = .swap then Function.update forward moved.source minPB else forward
    else state.1.minPCpu
  let needsUpdate := state.2 || decide (minPA ≠ minPB)
  if moved.direct = .unidirectional then
    ({ state.1 with
        minPCpu := if minPA ≠ 0 then Function.update written moved.source 0 else written
        minPCount := if minPB ≠ 0 then state.1.minPCount - 1 else state.1.minPCount },
      needsUpdate)
  else ({ state.1 with minPCpu := written }, needsUpdate)

def updateState (float32 : Num → Num) (processor : MinPLogitsProcessor Num)
    (batchUpdate : Option (BatchUpdate Num)) : MinPLogitsProcessor Num :=
  match batchUpdate with
  | none => processor
  | some update =>
    let grown := update.added.foldl (addMinP float32) (processor, false)
    let replayed :=
      if grown.1.minPCount ≠ 0 then
        update.moved.foldl moveMinP
          (update.removed.foldl removeMinP grown.1, grown.2 || !update.removed.isEmpty)
      else grown
    if replayed.1.minPCount ≠ 0 ∧
        (replayed.2 ∨ replayed.1.minP.length ≠ update.batchSize) then
      { replayed.1 with minP := (List.range update.batchSize).map replayed.1.minPCpu }
    else replayed.1

end MinPLogitsProcessor

end VllmDcu.LogitsProcessors

import VllmDcu.RaggedArrays

/-! The metadata of a batch that all layers share. Tensors that have a copy on the device stand for both. -/
namespace VllmDcu.AttentionMetadata
open RaggedArrays List

structure CommonAttentionMetadata where
  queryStartLoc : List Int
  seqLens : List Int
  numReqs : Nat
  numActualTokens : Int
  maxQueryLen : Int
  maxSeqLen : Int
  blockTable : List (List Nat)
  slotMapping : List Int
  causal : Bool
  /-- `_num_computed_tokens_cpu` -/
  givenComputedTokens : Option (List Int)
  deriving DecidableEq

namespace CommonAttentionMetadata
variable (common : CommonAttentionMetadata)

/-- `query_start_loc[1:] - query_start_loc[:-1]` -/
def queryLens : List Int :=
  List.zipWith (fun stop start => stop - start) common.queryStartLoc.tail common.queryStartLoc.dropLast

end CommonAttentionMetadata

/-- Differences of running sums. -/
theorem diffs_cumsumFrom (sum : Int) (values : List Int) :
    List.zipWith (fun stop start => stop - start) (sum :: cumsumFrom sum values).tail
      (sum :: cumsumFrom sum values).dropLast = values := by
  induction values generalizing sum with
  | nil => rfl
  | cons value values ih =>
    have rest := ih (sum + value)
    rw [tail_cons] at rest ⊢
    have own : sum + value - sum = value := by omega
    rw [cumsumFrom, dropLast_cons_of_ne_nil (cons_ne_nil _ _), zipWith_cons_cons, rest, own]

end VllmDcu.AttentionMetadata

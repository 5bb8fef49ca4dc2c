import Mathlib.Data.List.Basic

/-! What a request hands to its consumer: completions, request outputs, and the
collector that merges outputs the consumer has not taken yet. `none` is a raised
exception. An entry `none` in a list of outputs is the placeholder of the list
that gathers final completions. -/
namespace VllmDcu.RequestOutputs
open List Option

inductive RequestOutputKind where
  | cumulative
  | delta
  | finalOnly
  deriving DecidableEq, Repr

inductive FinishReason where
  | stop
  | length
  | abort
  | error
  | repetition
  deriving DecidableEq, Repr

inductive StopReason where
  | token (id : Int)
  | text (chars : List Char)
  deriving DecidableEq, Repr

/-- `sharedLogprobs` tells that the list of logprobs is the logprobs processor's
own list and not a slice of it: a later append to either shows in both. -/
structure CompletionOutput (Prob Logprob Experts : Type) where
  index : Nat
  text : List Char
  tokenIds : List Nat
  cumulativeLogprob : Option Prob
  logprobs : Option (List Logprob)
  sharedLogprobs : Bool
  routedExperts : Option Experts
  finishReason : Option FinishReason
  stopReason : Option StopReason
  deriving DecidableEq, Repr

structure RequestOutput (Prob Logprob Experts Params : Type) where
  outputs : List (Option (CompletionOutput Prob Logprob Experts))
  finished : Bool
  kvTransferParams : Option Params
  deriving DecidableEq, Repr

variable {Prob Logprob Experts Params : Type}

def CompletionOutput.finished (completion : CompletionOutput Prob Logprob Experts) : Bool :=
  completion.finishReason.isSome

/-- The merge of two outputs with the same index: the assertion fails when there
are logprobs to add and no list to add them to. -/
def CompletionOutput.merge (completion next : CompletionOutput Prob Logprob Experts) :
    Option (CompletionOutput Prob Logprob Experts) :=
  let merged := { completion with
    text := completion.text ++ next.text
    tokenIds := completion.tokenIds ++ next.tokenIds
    cumulativeLogprob := next.cumulativeLogprob
    finishReason := next.finishReason
    stopReason := next.stopReason }
  match next.logprobs with
  | some (entry :: rest) =>
    completion.logprobs.map fun held => { merged with logprobs := some (held ++ entry :: rest) }
  | _ => some merged

/-- The inner loop of `add`, with its `else` at the end of the list. -/
def addCompletion (aggregate : Bool) (next : CompletionOutput Prob Logprob Experts) :
    List (Option (CompletionOutput Prob Logprob Experts)) →
    Option (List (Option (CompletionOutput Prob Logprob Experts)))
  | [] => some [some next]
  | none :: _ => none
  | some completion :: rest =>
    if completion.index = next.index then
      if aggregate then (completion.merge next).map fun merged => some merged :: rest
      else some (some next :: rest)
    else (addCompletion aggregate next rest).map (some completion :: ·)

def addNext (aggregate : Bool) (outputs : List (Option (CompletionOutput Prob Logprob Experts))) :
    Option (CompletionOutput Prob Logprob Experts) →
    Option (List (Option (CompletionOutput Prob Logprob Experts)))
  | some next => addCompletion aggregate next outputs
  -- the placeholder has no index to compare
  | none => if outputs = [] then some [none] else none

/-- Merge subsequent RequestOutput into this one. -/
def RequestOutput.add (self nextOutput : RequestOutput Prob Logprob Experts Params)
    (aggregate : Bool) : Option (RequestOutput Prob Logprob Experts Params) :=
  (nextOutput.outputs.foldlM (addNext aggregate) self.outputs).map fun outputs =>
    ⟨outputs, self.finished || nextOutput.finished, nextOutput.kvTransferParams⟩

/-- Sentinel to indicate request is finished, used with streaming inputs. -/
def streamFinished : RequestOutput Prob Logprob Experts Params := ⟨[], true, none⟩

structure RequestOutputCollector (Prob Logprob Experts Params : Type) where
  aggregate : Bool
  output : Option (RequestOutput Prob Logprob Experts Params)
  deriving DecidableEq, Repr

def RequestOutputCollector.init (outputKind : RequestOutputKind) :
    RequestOutputCollector Prob Logprob Experts Params :=
  ⟨outputKind = .delta, none⟩

/-- Non-blocking put operation. -/
def RequestOutputCollector.put (self : RequestOutputCollector Prob Logprob Experts Params)
    (output : RequestOutput Prob Logprob Experts Params) :
    Option (RequestOutputCollector Prob Logprob Experts Params) :=
  match self.output with
  | none => some { self with output := some output }
  | some held => (held.add output self.aggregate).map fun merged =>
    { self with output := some merged }

/-- What `get` and `get_nowait` do when there is an output. -/
def RequestOutputCollector.take (self : RequestOutputCollector Prob Logprob Experts Params) :
    RequestOutputCollector Prob Logprob Experts Params :=
  { self with output := none }

/-- How often a list of outputs holds a final completion of an index. -/
def finals (index : Nat) (outputs : List (Option (CompletionOutput Prob Logprob Experts))) : Nat :=
  outputs.countP fun entry => entry.any fun completion =>
    decide (completion.index = index) && completion.finished

theorem finals_cons (index : Nat) (completion : CompletionOutput Prob Logprob Experts)
    (rest : List (Option (CompletionOutput Prob Logprob Experts))) :
    finals index (some completion :: rest) =
      finals index rest + if completion.index = index ∧ completion.finished = true then 1 else 0 := by
  unfold finals
  rw [countP_cons]
  simp

theorem merge_keeps (completion next merged : CompletionOutput Prob Logprob Experts)
    (done : completion.merge next = some merged) :
    merged.index = completion.index ∧ merged.finishReason = next.finishReason := by
  unfold CompletionOutput.merge at done
  split at done
  · obtain ⟨held, -, rfl⟩ := map_eq_some_iff.mp done
    exact ⟨rfl, rfl⟩
  · cases done
    exact ⟨rfl, rfl⟩

/-- Adding a completion adds its finish, if the index had none, and changes no
other index; a list of real completions stays one. -/
theorem addCompletion_finals (aggregate : Bool) (next : CompletionOutput Prob Logprob Experts)
    (outputs after : List (Option (CompletionOutput Prob Logprob Experts)))
    (done : addCompletion aggregate next outputs = some after) :
    (none ∉ outputs → none ∉ after) ∧
      (∀ index, index ≠ next.index → finals index after = finals index outputs) ∧
      (finals next.index outputs = 0 →
        finals next.index after = if next.finished then 1 else 0) := by
  induction outputs generalizing after with
  | nil =>
    cases done
    refine ⟨by simp, ?_, ?_⟩
    · intro index other
      simp [finals, Ne.symm other]
    · simp [finals, countP_cons]
  | cons entry rest ih =>
    cases entry with
    | none => cases done
    | some completion =>
      rw [addCompletion] at done
      split at done
      · rename_i same
        -- the entry of this index is merged or replaced
        have replaced : ∃ entry : CompletionOutput Prob Logprob Experts,
            after = some entry :: rest ∧ entry.index = next.index ∧
              entry.finished = next.finished := by
          split at done
          · obtain ⟨merged, merge, rfl⟩ := map_eq_some_iff.mp done
            obtain ⟨index, reason⟩ := merge_keeps completion next merged merge
            exact ⟨merged, rfl, index.trans same, by unfold CompletionOutput.finished; rw [reason]⟩
          · cases done
            exact ⟨next, rfl, rfl, rfl⟩
        obtain ⟨entry, rfl, index, finish⟩ := replaced
        refine ⟨?_, ?_, ?_⟩
        · intro real
          simp only [mem_cons, not_or] at real ⊢
          exact ⟨by simp, real.2⟩
        · intro other different
          rw [finals_cons, finals_cons, index, same]
          simp [Ne.symm different]
        · intro zero
          rw [finals_cons] at zero
          rw [finals_cons, index, finish]
          simp only [true_and]
          omega
      · rename_i different
        obtain ⟨later, doneLater, rfl⟩ := map_eq_some_iff.mp done
        obtain ⟨real, others, mine⟩ := ih later doneLater
        refine ⟨?_, ?_, ?_⟩
        · intro held
          simp only [mem_cons, not_or] at held ⊢
          exact ⟨by simp, real held.2⟩
        · intro index other
          rw [finals_cons, finals_cons, others index other]
        · intro zero
          rw [finals_cons] at zero
          rw [finals_cons]
          simp only [different, false_and, ↓reduceIte, Nat.add_zero] at zero ⊢
          exact mine zero

theorem add_single (output : RequestOutput Prob Logprob Experts Params)
    (next : CompletionOutput Prob Logprob Experts) (finished : Bool) (kvTransferParams : Option Params)
    (aggregate : Bool) :
    output.add ⟨[some next], finished, kvTransferParams⟩ aggregate =
      (addCompletion aggregate next output.outputs).map fun outputs =>
        ⟨outputs, output.finished || finished, kvTransferParams⟩ := by
  simp only [RequestOutput.add, foldlM_cons, foldlM_nil, addNext]
  cases addCompletion aggregate next output.outputs <;> rfl

/-- What waits in the collector: final completions of an index, the finished flag,
and that no placeholder is among the outputs. -/
def RequestOutputCollector.pendingFinals
    (self : RequestOutputCollector Prob Logprob Experts Params) (index : Nat) : Nat :=
  (self.output.map fun output => finals index output.outputs).getD 0

def RequestOutputCollector.pendingFinished
    (self : RequestOutputCollector Prob Logprob Experts Params) : Bool :=
  self.output.any RequestOutput.finished

def RequestOutputCollector.PendingReal
    (self : RequestOutputCollector Prob Logprob Experts Params) : Prop :=
  ∀ output, self.output = some output → none ∉ output.outputs

theorem put_single {queue after : RequestOutputCollector Prob Logprob Experts Params}
    {next : CompletionOutput Prob Logprob Experts} {finished : Bool}
    {kvTransferParams : Option Params}
    (done : queue.put ⟨[some next], finished, kvTransferParams⟩ = some after) :
    (queue.PendingReal → after.PendingReal) ∧
      after.pendingFinished = (queue.pendingFinished || finished) ∧
      (∀ index, index ≠ next.index → after.pendingFinals index = queue.pendingFinals index) ∧
      (queue.pendingFinals next.index = 0 →
        after.pendingFinals next.index = if next.finished then 1 else 0) := by
  unfold RequestOutputCollector.put at done
  cases held : queue.output with
  | none =>
    simp only [held, some.injEq] at done
    subst done
    simp only [RequestOutputCollector.PendingReal, RequestOutputCollector.pendingFinished,
      RequestOutputCollector.pendingFinals, held]
    refine ⟨by simp, by simp, ?_, ?_⟩
    · intro index other
      simp [finals, Ne.symm other]
    · simp [finals, countP_cons]
  | some output =>
    simp only [held, add_single, map_eq_some_iff] at done
    obtain ⟨-, ⟨outputs, added, rfl⟩, rfl⟩ := done
    obtain ⟨real, others, mine⟩ := addCompletion_finals queue.aggregate next output.outputs
      outputs added
    simp only [RequestOutputCollector.PendingReal, RequestOutputCollector.pendingFinished,
      RequestOutputCollector.pendingFinals, held, some.injEq, forall_eq', any_some,
      map_some, getD_some]
    exact ⟨real, trivial, others, mine⟩

end VllmDcu.RequestOutputs

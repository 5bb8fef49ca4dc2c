import VllmDcu.OutputProcessing

/-! The pieces of one completion index among the outputs that a collector holds or
has handed out, and what putting, merging and taking do to them. -/
namespace VllmDcu.StreamPieces
open RequestOutputs OutputProcessing List Option

variable {State Entry Prob Logprob Experts Params : Type}

/-- The completions of an index, in order. -/
def piecesOf (index : Nat) (outputs : List (Option (CompletionOutput Prob Logprob Experts))) :
    List (CompletionOutput Prob Logprob Experts) :=
  outputs.filterMap fun entry => entry.filter fun completion => decide (completion.index = index)

/-- The pieces of an index that wait in the collector. -/
def waiting (index : Nat) (queue : RequestOutputCollector Prob Logprob Experts Params) :
    List (CompletionOutput Prob Logprob Experts) :=
  piecesOf index ((queue.output.map RequestOutput.outputs).getD [])

variable (index : Nat)

theorem piecesOf_cons (completion : CompletionOutput Prob Logprob Experts)
    (rest : List (Option (CompletionOutput Prob Logprob Experts))) :
    piecesOf index (some completion :: rest) =
      (if completion.index = index then [completion] else []) ++ piecesOf index rest := by
  unfold piecesOf
  by_cases same : completion.index = index <;> simp [same, Option.filter]

theorem piecesOf_index (outputs : List (Option (CompletionOutput Prob Logprob Experts)))
    (completion : CompletionOutput Prob Logprob Experts)
    (inPieces : completion ∈ piecesOf index outputs) : completion.index = index := by
  obtain ⟨entry, -, isEntry⟩ := mem_filterMap.mp inPieces
  exact of_decide_eq_true (filter_eq_some_iff.mp isEntry).2

variable (queue : RequestOutputCollector Prob Logprob Experts Params)

theorem waiting_index (completion : CompletionOutput Prob Logprob Experts)
    (waits : completion ∈ waiting index queue) : completion.index = index :=
  piecesOf_index index _ completion waits

/-- The piece that a completion makes of the one that waits. -/
def joined (aggregate : Bool) (held : Option (CompletionOutput Prob Logprob Experts))
    (next : CompletionOutput Prob Logprob Experts) :
    Option (CompletionOutput Prob Logprob Experts) :=
  match held with
  | none => some next
  | some held => if aggregate then held.merge next else some next

theorem joined_index {aggregate : Bool} {held : Option (CompletionOutput Prob Logprob Experts)}
    {next result : CompletionOutput Prob Logprob Experts}
    (sameIndex : ∀ completion, held = some completion → completion.index = next.index)
    (join : joined aggregate held next = some result) : result.index = next.index := by
  cases held with
  | none =>
    cases join
    rfl
  | some completion =>
    simp only [joined] at join
    split at join
    · exact (merge_keeps completion next result join).1.trans (sameIndex completion rfl)
    · cases join
      rfl

/-- A completion joins the piece of its index and leaves the other pieces. -/
theorem addCompletion_pieces {aggregate : Bool} {next result : CompletionOutput Prob Logprob Experts}
    {outputs : List (Option (CompletionOutput Prob Logprob Experts))} (real : none ∉ outputs)
    (single : (piecesOf next.index outputs).length ≤ 1)
    (join : joined aggregate (piecesOf next.index outputs).head? next = some result) :
    ∃ after, addCompletion aggregate next outputs = some after ∧ none ∉ after ∧
      (∀ other, other ≠ next.index → piecesOf other after = piecesOf other outputs) ∧
      piecesOf next.index after = [result] := by
  induction outputs with
  | nil =>
    cases join
    refine ⟨[some next], rfl, by simp, ?_, ?_⟩
    · intro other different
      simp [piecesOf, Option.filter, Ne.symm different]
    · simp [piecesOf, Option.filter]
  | cons entry rest ih =>
    cases entry with
    | none => simp at real
    | some completion =>
      have realRest : none ∉ rest := fun inRest => real (mem_cons_of_mem _ inRest)
      by_cases same : completion.index = next.index
      · -- the piece is replaced or merged; the rest has no other
        simp only [piecesOf_cons, same, ↓reduceIte, singleton_append, length_cons,
          head?_cons] at single join
        have nothing : piecesOf next.index rest = [] := by
          apply length_eq_zero_iff.mp
          omega
        have index := joined_index (fun other is => by cases is; exact same) join
        refine ⟨some result :: rest, ?_, ?_, ?_, ?_⟩
        · rw [addCompletion, if_pos same]
          simp only [joined] at join
          cases aggregate with
          | true =>
            simp only [↓reduceIte] at join ⊢
            rw [join]
            rfl
          | false =>
            cases join
            rfl
        · simpa using realRest
        · intro other different
          have notHere : ¬ next.index = other := fun is => different is.symm
          simp only [piecesOf_cons, index, same, if_neg notHere]
        · simp [piecesOf_cons, index, nothing]
      · simp only [piecesOf_cons, same, ↓reduceIte, nil_append] at single join
        obtain ⟨after, added, realAfter, others, mine⟩ := ih realRest single join
        refine ⟨some completion :: after, ?_, ?_, ?_, ?_⟩
        · rw [addCompletion, if_neg same, added]
          rfl
        · simpa using realAfter
        · intro other different
          simp only [piecesOf_cons, others other different]
        · simp only [piecesOf_cons, same, ↓reduceIte, nil_append, mine]

/-- Putting one completion into the collector. -/
theorem put_pieces {next result : CompletionOutput Prob Logprob Experts} {finished : Bool}
    {kvTransferParams : Option Params} (real : queue.PendingReal)
    (single : (waiting next.index queue).length ≤ 1)
    (join : joined queue.aggregate (waiting next.index queue).head? next = some result) :
    ∃ after, queue.put ⟨[some next], finished, kvTransferParams⟩ = some after ∧
      after.aggregate = queue.aggregate ∧ after.PendingReal ∧
      (∀ other, other ≠ next.index → waiting other after = waiting other queue) ∧
      waiting next.index after = [result] := by
  unfold RequestOutputCollector.put
  cases held : queue.output with
  | none =>
    simp only [waiting, held, piecesOf, map_none, getD_none, filterMap_nil,
      head?_nil, joined, some.injEq] at join
    subst join
    refine ⟨_, rfl, rfl, ?_, ?_, ?_⟩
    · rintro output ⟨⟩
      simp
    · intro other different
      simp [waiting, held, piecesOf, Option.filter, Ne.symm different]
    · simp [waiting, piecesOf, Option.filter]
  | some output =>
    simp only [waiting, held, map_some, getD_some] at single join ⊢
    obtain ⟨outputs, added, realAfter, others, mine⟩ := addCompletion_pieces (real output held) single join
    rw [add_single, added]
    refine ⟨_, rfl, rfl, ?_, others, mine⟩
    rintro _ ⟨⟩
    exact realAfter

/-- The sentinel of a session changes no piece. -/
theorem put_streamFinished_pieces (real : queue.PendingReal) :
    ∃ after, queue.put streamFinished = some after ∧ after.aggregate = queue.aggregate ∧
      after.PendingReal ∧ ∀ index, waiting index after = waiting index queue := by
  unfold RequestOutputCollector.put
  cases held : queue.output with
  | none =>
    refine ⟨_, rfl, rfl, ?_, ?_⟩
    · rintro output ⟨⟩
      simp [streamFinished]
    · simp [waiting, held, streamFinished]
  | some output =>
    refine ⟨_, rfl, rfl, ?_, ?_⟩
    · rintro _ ⟨⟩
      exact real output held
    · simp [waiting, held]

theorem refresh_pieces (logprobs : Option (List Logprob))
    (queue : RequestOutputCollector Prob Logprob Experts Params) (other : Nat) :
    waiting other (refreshLogprobs index logprobs queue) =
      (waiting other queue).map (showShared index logprobs) := by
  have shown : ∀ completion : CompletionOutput Prob Logprob Experts,
      (showShared index logprobs completion).index = completion.index := by
    intro completion
    unfold showShared
    split <;> rfl
  have mapped : ∀ outputs : List (Option (CompletionOutput Prob Logprob Experts)),
      piecesOf other (outputs.map (Option.map (showShared index logprobs))) =
        (piecesOf other outputs).map (showShared index logprobs) := by
    intro outputs
    unfold piecesOf
    rw [filterMap_map, map_filterMap]
    congr 1
    funext entry
    cases entry with
    | none => rfl
    | some completion =>
      by_cases same : completion.index = other <;> simp [Option.filter, shown completion, same]
  unfold waiting refreshLogprobs
  cases queue.output with
  | none => rfl
  | some output => exact mapped output.outputs

theorem refresh_other {logprobs : Option (List Logprob)}
    {queue : RequestOutputCollector Prob Logprob Experts Params} {other : Nat}
    (different : other ≠ index) :
    waiting other (refreshLogprobs index logprobs queue) = waiting other queue := by
  rw [refresh_pieces]
  conv => rhs; rw [← List.map_id (waiting other queue)]
  apply map_congr_left
  intro completion waits
  have otherIndex := waiting_index other queue completion waits
  exact if_neg fun is => different (otherIndex.symm.trans is.1)

theorem sharedList_pieces :
    sharedList index queue = (waiting index queue).findSome? fun completion =>
      if completion.sharedLogprobs = true then completion.logprobs else none := by
  unfold sharedList waiting
  generalize (queue.output.map RequestOutput.outputs).getD [] = outputs
  induction outputs with
  | nil => rfl
  | cons entry rest ih =>
    cases entry with
    | none =>
      have same : piecesOf index (none :: rest) = piecesOf index rest := by simp [piecesOf]
      rw [same, ← ih]
      rfl
    | some completion =>
      rw [piecesOf_cons, findSome?_append, ← ih]
      by_cases same : completion.index = index
      · cases shared : completion.sharedLogprobs with
        | false => simp [same, shared]
        | true => 
            cases logprobs : completion.logprobs <;> simp [same, shared, logprobs]
      · simp [same]

end VllmDcu.StreamPieces

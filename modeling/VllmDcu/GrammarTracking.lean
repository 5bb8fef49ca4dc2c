import VllmDcu.GrammarProgress
import VllmDcu.DraftValidation

/-! The grammar follows the generated tokens from the end of the reasoning on. -/
namespace VllmDcu.GrammarTracking
open Requests (Token)
open StructuredOutput StructuredOutputGrammar GrammarBitmask GrammarProgress DraftValidation
open List Option

/-! What the grammar should see. -/

/-- The tokens after the first end marker. -/
def afterMarker (endTokenId : Token) (tokens : List Token) : List Token :=
  (tokens.dropWhile fun token => token != endTokenId).drop 1

variable (endTokenId : Token)

theorem afterMarker_cons {token : Token} {rest : List Token} (other : token ≠ endTokenId) :
    afterMarker endTokenId (token :: rest) = afterMarker endTokenId rest := by
  rw [afterMarker, dropWhile_cons, if_pos (bne_iff_ne.mpr other), afterMarker]

theorem afterMarker_without (tokens : List Token) (absent : endTokenId ∉ tokens) :
    afterMarker endTokenId tokens = [] := by
  induction tokens with
  | nil => rfl
  | cons token rest ih =>
    rw [mem_cons, not_or] at absent
    rw [afterMarker_cons endTokenId (Ne.symm absent.1)]
    exact ih absent.2

theorem afterMarker_append {before tokens : List Token} (present : endTokenId ∈ before) :
    afterMarker endTokenId (before ++ tokens) = afterMarker endTokenId before ++ tokens := by
  induction before with
  | nil => cases present
  | cons token rest ih =>
    by_cases marker : token = endTokenId
    · subst marker
      simp [afterMarker]
    · have inRest : endTokenId ∈ rest := by
        cases mem_cons.mp present with
        | inl same => exact absurd same.symm marker
        | inr later => exact later
      rw [cons_append, afterMarker_cons endTokenId marker, afterMarker_cons endTokenId marker]
      exact ih inRest

theorem afterMarker_last (tokens : List Token) (last : endTokenId ∉ tokens.dropLast) :
    afterMarker endTokenId tokens = [] := by
  induction tokens with
  | nil => rfl
  | cons token rest ih =>
    cases rest with
    | nil =>
      by_cases marker : token = endTokenId
      · subst marker
        simp [afterMarker]
      · rw [afterMarker_cons endTokenId marker]
        rfl
    | cons second others =>
      rw [dropLast_cons_cons, mem_cons, not_or] at last
      rw [afterMarker_cons endTokenId (Ne.symm last.1)]
      exact ih last.2

variable {Grammar : Type}

/-- The reasoning is over: in the prompt already, or with a generated marker. -/
def ReasoningOver (reasoner : ReasoningParser) (endTokenId : Token) (prompt generated : List Token) :
    Prop :=
  reasoner.isReasoningEnd prompt = true ∨ endTokenId ∈ generated

/-- What the grammar was given. -/
def expected (reasoner : Option ReasoningParser) (endTokenId : Token)
    (prompt generated : List Token) : List Token :=
  match reasoner with
  | none => generated
  | some reasoner =>
    if reasoner.isReasoningEnd prompt then generated else afterMarker endTokenId generated

/-- The reasoning flag and the grammar agree with the generated tokens. -/
def Follows (config : SchedulerConfig) (endTokenId : Token) (prompt generated : List Token)
    (tracked : Tracked Grammar) : Prop :=
  (∀ reasoner, config.manager.reasoner = some reasoner →
    ∃ structured, tracked.request.structuredOutputRequest = some structured ∧
      (structured.reasoningEnded = some true ↔
        ReasoningOver reasoner endTokenId prompt generated)) ∧
  tracked.passed = expected config.manager.reasoner endTokenId prompt generated

/-! The condition. -/

/-- Where the end marker may stand in the tokens that a step appends to `request`: it is the last
of them, and the tokens from `num_computed_tokens - num_output_placeholders` on hold an end marker
exactly if the appended ones do. -/
def MarkerStands (endTokenId : Token) (request : Request Grammar) (appended : List Token) : Prop :=
  endTokenId ∉ appended.dropLast ∧ (endTokenId ∈ deltaIds request ↔ endTokenId ∈ appended)

instance (endTokenId : Token) (request : Request Grammar) (appended : List Token) :
    Decidable (MarkerStands endTokenId request appended) :=
  inferInstanceAs (Decidable (_ ∧ _))

/-- The reasoning of a request that can still append tokens goes on. -/
def Reasons (tracked : Tracked Grammar) (structured : StructuredOutputRequest Grammar) : Prop :=
  tracked.request.isFinished = false ∧ structured.reasoningEnded ≠ some true

instance (tracked : Tracked Grammar) (structured : StructuredOutputRequest Grammar) :
    Decidable (Reasons tracked structured) :=
  inferInstanceAs (Decidable (_ ∧ _))

def Discards (config : SchedulerConfig) (tracked : Tracked Grammar) : Prop :=
  config.asyncScheduling = true ∧ tracked.discardLatestAsyncTokens = true

instance (config : SchedulerConfig) (tracked : Tracked Grammar) :
    Decidable (Discards config tracked) :=
  inferInstanceAs (Decidable (_ ∧ _))

/-- While the reasoning goes on, the end marker stands last in its step, and the tokens that are
looked at when drafts arrive hold none. -/
def MeetsStep (config : SchedulerConfig) (endTokenId : Token) (tracked : Tracked Grammar) :
    Event → Prop
  | .updateFromOutput sampled kept stopped =>
    ∀ entry ∈ tracked.inFlight.head?, ∀ structured ∈ tracked.request.structuredOutputRequest,
      Reasons tracked structured → sampled ≠ [] → ¬ Discards config tracked →
        MarkerStands endTokenId (appendTokens config (withoutRejected tracked.request
          entry.drafts.length sampled.length) sampled kept stopped) (sampled.take kept)
  | .updateDraft _ | .updateDraftInOutput _ =>
    ∀ structured ∈ tracked.request.structuredOutputRequest,
      structured.reasoningEnded ≠ some true → endTokenId ∉ deltaIds tracked.request
  | _ => True

instance (config : SchedulerConfig) (endTokenId : Token) (tracked : Tracked Grammar)
    (event : Event) : Decidable (MeetsStep config endTokenId tracked event) :=
  match event with
  | .updateFromOutput sampled kept stopped =>
    inferInstanceAs (Decidable (∀ entry ∈ tracked.inFlight.head?,
      ∀ structured ∈ tracked.request.structuredOutputRequest,
        Reasons tracked structured → sampled ≠ [] → ¬ Discards config tracked →
          MarkerStands endTokenId (appendTokens config (withoutRejected tracked.request
            entry.drafts.length sampled.length) sampled kept stopped) (sampled.take kept)))
  | .updateDraft _ | .updateDraftInOutput _ =>
    inferInstanceAs (Decidable (∀ structured ∈ tracked.request.structuredOutputRequest,
      structured.reasoningEnded ≠ some true → endTokenId ∉ deltaIds tracked.request))
  | .scheduleRunning _ | .scheduleWaiting _ _ | .fillBitmask | .preempt | .resetPreempt =>
    .isTrue trivial

def Meets [StructuredOutputGrammar Grammar] (config : SchedulerConfig) (endTokenId : Token) :
    List Event → Tracked Grammar → Prop
  | [], _ => True
  | event :: rest, tracked =>
    MeetsStep config endTokenId tracked event ∧
      ∀ next ∈ step config tracked event, Meets config endTokenId rest next

instance decideMeets [StructuredOutputGrammar Grammar] (config : SchedulerConfig)
    (endTokenId : Token) :
    ∀ (events : List Event) (tracked : Tracked Grammar),
      Decidable (Meets config endTokenId events tracked)
  | [], _ => .isTrue trivial
  | event :: rest, tracked =>
    have _ (next : Tracked Grammar) := decideMeets config endTokenId rest next
    inferInstanceAs (Decidable (MeetsStep config endTokenId tracked event ∧
      ∀ next ∈ step config tracked event, Meets config endTokenId rest next))

/-! The invariant. -/

/-- What holds of the request in every state. A step whose mask was asked for and that is no
prefill chunk has asked whether the reasoning has ended. -/
structure Invariant (config : SchedulerConfig) (endTokenId : Token)
    (promptTokenIds : Option (List Token)) (base generated : List Token)
    (tracked : Tracked Grammar) (structured : StructuredOutputRequest Grammar) : Prop where
  uses : tracked.request.structuredOutputRequest = some structured
  prompt : tracked.request.promptTokenIds = promptTokenIds
  tokens : tracked.request.allTokenIds = base ++ generated
  passed : tracked.passed =
    expected config.manager.reasoner endTokenId (promptTokenIds.getD []) generated
  fresh : ∀ reasoner, config.manager.reasoner = some reasoner →
    structured.reasoningEnded = none → generated = []
  ended : ∀ reasoner, config.manager.reasoner = some reasoner → structured.reasoningEnded ≠ none →
    (structured.reasoningEnded = some true ↔
      ReasoningOver reasoner endTokenId (promptTokenIds.getD []) generated)
  current : ∀ entry ∈ tracked.inFlight, entry.filled = false →
    entry.isPrefillChunk = tracked.request.isPrefillChunk
  asked : ∀ entry ∈ tracked.inFlight, entry.filled = true → entry.isPrefillChunk = false →
    config.manager.reasoner ≠ none → structured.reasoningEnded ≠ none

theorem shouldFill_ended {config : ManagerConfig} {reasoner : ReasoningParser}
    (thinks : config.reasoner = some reasoner) (outside : config.enableInReasoning = false)
    (request : Request Grammar) (structured : StructuredOutputRequest Grammar) :
    (shouldFillBitmask config request structured).2.reasoningEnded =
      some (structured.reasoningEnded.getD
        (reasoner.isReasoningEnd (request.promptTokenIds.getD []))) := by
  simp only [shouldFillBitmask, thinks, outside]
  cases kind : structured.reasoningEnded with
  | none => rfl
  | some flag => simp [kind]

/-- `should_advance` answers whether the reasoning was over, and notes an end marker. -/
theorem shouldAdvance_cases {config : ManagerConfig} {endTokenId : Token}
    {reasoner : ReasoningParser} (thinks : config.reasoner = some reasoner)
    (outside : config.enableInReasoning = false)
    (streams : ∀ ids delta, reasoner.isReasoningEndStreaming ids delta = decide (endTokenId ∈ delta))
    (request : Request Grammar) (structured : StructuredOutputRequest Grammar) :
    shouldAdvance config request structured =
      if structured.reasoningEnded = some true then (true, structured)
      else if endTokenId ∈ deltaIds request then
        (false, { structured with reasoningEnded := some true })
      else (false, structured) := by
  simp only [shouldAdvance, thinks, outside, streams, decide_eq_true_eq]
  rfl

section
variable (config : SchedulerConfig) (endTokenId : Token) (promptTokenIds : Option (List Token))
  (base : List Token)

/-- A request whose tokens, prompt, structured output and steps in flight stay. -/
theorem invariant_frame {generated : List Token} {tracked tracked' : Tracked Grammar}
    {structured : StructuredOutputRequest Grammar}
    (holds : Invariant config endTokenId promptTokenIds base generated tracked structured)
    (uses : tracked'.request.structuredOutputRequest = tracked.request.structuredOutputRequest)
    (prompt : tracked'.request.promptTokenIds = tracked.request.promptTokenIds)
    (tokens : tracked'.request.allTokenIds = tracked.request.allTokenIds)
    (passed : tracked'.passed = tracked.passed)
    (chunk : tracked'.request.isPrefillChunk = tracked.request.isPrefillChunk)
    (inFlight : ∀ entry ∈ tracked'.inFlight, ∃ old ∈ tracked.inFlight,
      old.filled = entry.filled ∧ old.isPrefillChunk = entry.isPrefillChunk) :
    Invariant config endTokenId promptTokenIds base generated tracked' structured := by
  constructor
  · exact uses.trans holds.uses
  · exact prompt.trans holds.prompt
  · exact tokens.trans holds.tokens
  · exact passed.trans holds.passed
  · exact holds.fresh
  · exact holds.ended
  · intro entry member unfilled
    obtain ⟨old, inOld, filled, chunks⟩ := inFlight entry member
    rw [chunk, ← chunks]
    exact holds.current old inOld (filled.trans unfilled)
  · intro entry member isFilled notChunk
    obtain ⟨old, inOld, filled, chunks⟩ := inFlight entry member
    exact holds.asked old inOld (filled.trans isFilled) (chunks.trans notChunk)

theorem updateAfterSchedule_keeps {request : Request Grammar} {numScheduledTokens numDrafts : Nat} :
    let after := updateAfterSchedule config request numScheduledTokens numDrafts
    after.structuredOutputRequest = request.structuredOutputRequest ∧
      after.promptTokenIds = request.promptTokenIds ∧ after.allTokenIds = request.allTokenIds := by
  rw [updateAfterSchedule]
  split
  · exact ⟨rfl, rfl, rfl⟩
  · exact ⟨rfl, rfl, rfl⟩

/-- A new step in flight, while the masks of all older ones were asked for. -/
theorem launch_invariant {generated : List Token} {tracked : Tracked Grammar}
    {structured : StructuredOutputRequest Grammar}
    (holds : Invariant config endTokenId promptTokenIds base generated tracked structured)
    (filled : tracked.inFlight.all (·.filled) = true) (request : Request Grammar)
    (uses : request.structuredOutputRequest = tracked.request.structuredOutputRequest)
    (prompt : request.promptTokenIds = tracked.request.promptTokenIds)
    (tokens : request.allTokenIds = tracked.request.allTokenIds)
    (numScheduledTokens : Nat) (drafts : List Token) :
    Invariant config endTokenId promptTokenIds base generated
      (launch config tracked request numScheduledTokens drafts) structured := by
  obtain ⟨usesAfter, promptAfter, tokensAfter⟩ := updateAfterSchedule_keeps config
  constructor
  · exact usesAfter.trans (uses.trans holds.uses)
  · exact promptAfter.trans (prompt.trans holds.prompt)
  · exact tokensAfter.trans (tokens.trans holds.tokens)
  · exact holds.passed
  · exact holds.fresh
  · exact holds.ended
  · intro entry member unfilled
    cases mem_append.mp member with
    | inl old =>
      rw [List.all_eq_true.mp filled entry old] at unfilled
      cases unfilled
    | inr new =>
      obtain rfl := mem_singleton.mp new
      rfl
  · intro entry member isFilled
    cases mem_append.mp member with
    | inl old => exact holds.asked entry old isFilled
    | inr new =>
      obtain rfl := mem_singleton.mp new
      cases isFilled

theorem fillNewest_mem {entries : List Scheduled} {entry : Scheduled}
    (member : entry ∈ fillNewest entries) :
    ∃ old ∈ entries, old.isPrefillChunk = entry.isPrefillChunk ∧
      (old = entry ∨ old.filled = false) := by
  induction entries with
  | nil => cases member
  | cons first rest ih =>
    rw [fillNewest] at member
    split at member
    · cases mem_cons.mp member with
      | inl here => exact ⟨first, mem_cons_self, by rw [here], Or.inl here.symm⟩
      | inr later =>
        obtain ⟨old, inRest, facts⟩ := ih later
        exact ⟨old, mem_cons_of_mem _ inRest, facts⟩
    · rename_i unfilled
      rw [Bool.not_eq_true] at unfilled
      cases mem_cons.mp member with
      | inl here => exact ⟨first, mem_cons_self, by rw [here], Or.inr unfilled⟩
      | inr later => exact ⟨entry, mem_cons_of_mem _ later, rfl, Or.inl rfl⟩

theorem fillBitmask_invariant (outside : config.manager.enableInReasoning = false)
    {generated : List Token} {tracked next : Tracked Grammar}
    {structured : StructuredOutputRequest Grammar}
    (holds : Invariant config endTokenId promptTokenIds base generated tracked structured)
    (done : GrammarProgress.fillBitmask config tracked = some next) :
    ∃ structured', Invariant config endTokenId promptTokenIds base generated next structured' := by
  rw [GrammarProgress.fillBitmask, holds.uses] at done
  simp only at done
  by_cases chunk : tracked.request.isPrefillChunk = true
  · rw [if_pos chunk] at done
    obtain rfl := some.inj done
    refine ⟨structured, holds.uses, holds.prompt, holds.tokens, holds.passed, holds.fresh,
      holds.ended, ?_, ?_⟩
    · intro entry member unfilled
      obtain ⟨old, inOld, chunks, kept⟩ := fillNewest_mem member
      cases kept with
      | inl same => exact holds.current entry (same ▸ inOld) unfilled
      | inr oldUnfilled => exact chunks.symm.trans (holds.current old inOld oldUnfilled)
    · intro entry member isFilled notChunk
      obtain ⟨old, inOld, chunks, kept⟩ := fillNewest_mem member
      cases kept with
      | inl same => exact holds.asked entry (same ▸ inOld) isFilled notChunk
      | inr oldUnfilled =>
        have wasChunk := holds.current old inOld oldUnfilled
        rw [chunks, notChunk, chunk] at wasChunk
        cases wasChunk
  · rw [if_neg chunk] at done
    obtain rfl := some.inj done
    refine ⟨_, rfl, holds.prompt, holds.tokens, holds.passed, ?_, ?_, ?_, ?_⟩
    · intro reasoner thinks nothing
      rw [shouldFill_ended thinks outside] at nothing
      cases nothing
    · intro reasoner thinks _
      rw [shouldFill_ended thinks outside]
      cases flag : structured.reasoningEnded with
      | none =>
        rw [holds.fresh reasoner thinks flag, holds.prompt, ReasoningOver]
        simp
      | some ended =>
        have before := holds.ended reasoner thinks (by rw [flag]; exact some_ne_none ended)
        rw [flag] at before
        exact before
    · intro entry member unfilled
      obtain ⟨old, inOld, chunks, kept⟩ := fillNewest_mem member
      cases kept with
      | inl same => exact holds.current entry (same ▸ inOld) unfilled
      | inr oldUnfilled => exact chunks.symm.trans (holds.current old inOld oldUnfilled)
    · intro entry _ _ _ thinks
      cases kind : config.manager.reasoner with
      | none => exact absurd kind thinks
      | some reasoner =>
        rw [shouldFill_ended kind outside]
        exact some_ne_none _

/-- `should_advance` without new tokens changes nothing where the delta holds no end marker. -/
theorem shouldAdvance_quiet (outside : config.manager.enableInReasoning = false)
    (streams : ∀ reasoner, config.manager.reasoner = some reasoner → ∀ ids delta,
      reasoner.isReasoningEndStreaming ids delta = decide (endTokenId ∈ delta))
    {request : Request Grammar} {structured : StructuredOutputRequest Grammar}
    (quiet : structured.reasoningEnded ≠ some true → endTokenId ∉ deltaIds request) :
    (shouldAdvance config.manager request structured).2 = structured := by
  cases kind : config.manager.reasoner with
  | none => rw [shouldAdvance, kind]
  | some reasoner =>
    rw [shouldAdvance_cases kind outside (streams reasoner kind)]
    by_cases ended : structured.reasoningEnded = some true
    · rw [if_pos ended]
    · rw [if_neg ended, if_neg (quiet ended)]

variable [StructuredOutputGrammar Grammar]

/-- An update of the drafts keeps the tokens, and the reasoning flag. -/
theorem updateDraft_keeps (outside : config.manager.enableInReasoning = false)
    (streams : ∀ reasoner, config.manager.reasoner = some reasoner → ∀ ids delta,
      reasoner.isReasoningEndStreaming ids delta = decide (endTokenId ∈ delta))
    {request after : Request Grammar} {structured : StructuredOutputRequest Grammar}
    (uses : request.structuredOutputRequest = some structured)
    (quiet : structured.reasoningEnded ≠ some true → endTokenId ∉ deltaIds request)
    {specTokenIds : List Token} (done : updateDraft config.manager request specTokenIds = some after) :
    ∃ grammar, after.structuredOutputRequest = some { structured with grammar := grammar } ∧
      after.promptTokenIds = request.promptTokenIds ∧ after.allTokenIds = request.allTokenIds ∧
      after.isPrefillChunk = request.isPrefillChunk := by
  have same := shouldAdvance_quiet config endTokenId outside streams quiet
  rw [updateDraft, uses] at done
  split at done
  · obtain rfl := some.inj done
    exact ⟨structured.grammar, uses, rfl, rfl, rfl⟩
  · split at done
    · obtain rfl := some.inj done
      exact ⟨structured.grammar, rfl, rfl, rfl, rfl⟩
    · simp only [same] at done
      split at done
      · obtain ⟨⟨valid, grammar⟩, _, rfl⟩ := map_eq_some_iff.mp done
        exact ⟨grammar, rfl, rfl, rfl, rfl⟩
      · obtain rfl := some.inj done
        exact ⟨structured.grammar, rfl, rfl, rfl, rfl⟩

theorem updateDraftInOutput_keeps (outside : config.manager.enableInReasoning = false)
    (streams : ∀ reasoner, config.manager.reasoner = some reasoner → ∀ ids delta,
      reasoner.isReasoningEndStreaming ids delta = decide (endTokenId ∈ delta))
    {request after : Request Grammar} {structured : StructuredOutputRequest Grammar}
    (uses : request.structuredOutputRequest = some structured)
    (quiet : structured.reasoningEnded ≠ some true → endTokenId ∉ deltaIds request)
    {placeholders specTokenIds drafts : List Token}
    (done : updateDraftInOutput config.manager request placeholders specTokenIds =
      some (after, drafts)) :
    ∃ grammar, after.structuredOutputRequest = some { structured with grammar := grammar } ∧
      after.promptTokenIds = request.promptTokenIds ∧ after.allTokenIds = request.allTokenIds ∧
      after.isPrefillChunk = request.isPrefillChunk := by
  have same := shouldAdvance_quiet config endTokenId outside streams quiet
  rw [updateDraftInOutput, uses] at done
  simp only [same] at done
  split at done
  · obtain ⟨⟨valid, grammar⟩, _, found⟩ := map_eq_some_iff.mp done
    obtain ⟨rfl, _⟩ := Prod.mk.inj found
    exact ⟨grammar, rfl, rfl, rfl, rfl⟩
  · obtain ⟨rfl, _⟩ := Prod.mk.inj (some.inj done)
    exact ⟨structured.grammar, rfl, rfl, rfl, rfl⟩

omit [StructuredOutputGrammar Grammar] in
/-- Another grammar object with the same reasoning flag. -/
theorem regrammar_invariant {generated : List Token} {tracked tracked' : Tracked Grammar}
    {structured : StructuredOutputRequest Grammar} (grammar : Grammar)
    (holds : Invariant config endTokenId promptTokenIds base generated tracked structured)
    (uses : tracked'.request.structuredOutputRequest = some { structured with grammar := grammar })
    (prompt : tracked'.request.promptTokenIds = tracked.request.promptTokenIds)
    (tokens : tracked'.request.allTokenIds = tracked.request.allTokenIds)
    (passed : tracked'.passed = tracked.passed)
    (chunk : tracked'.request.isPrefillChunk = tracked.request.isPrefillChunk)
    (inFlight : ∀ entry ∈ tracked'.inFlight, ∃ old ∈ tracked.inFlight,
      old.filled = entry.filled ∧ old.isPrefillChunk = entry.isPrefillChunk) :
    Invariant config endTokenId promptTokenIds base generated tracked'
      { structured with grammar := grammar } := by
  have base' : Invariant config endTokenId promptTokenIds base generated
      { tracked with request := { tracked.request with
          structuredOutputRequest := some { structured with grammar := grammar } } }
      { structured with grammar := grammar } :=
    ⟨rfl, holds.prompt, holds.tokens, holds.passed, holds.fresh, holds.ended, holds.current,
      holds.asked⟩
  exact invariant_frame config endTokenId promptTokenIds base base' uses prompt tokens passed chunk
    inFlight

/-- What `update_from_output` passes on, when the end marker stands where the condition says. -/
theorem expected_append {endTokenId : Token} {reasoner : ReasoningParser}
    {prompt generated newTokenIds : List Token}
    (inPrompt : reasoner.isReasoningEnd prompt = true ∨ endTokenId ∈ generated) :
    expected (some reasoner) endTokenId prompt (generated ++ newTokenIds) =
      expected (some reasoner) endTokenId prompt generated ++ newTokenIds := by
  rw [expected, expected]
  by_cases ended : reasoner.isReasoningEnd prompt = true
  · rw [if_pos ended, if_pos ended]
  · rw [if_neg ended, if_neg ended]
    exact afterMarker_append endTokenId (inPrompt.resolve_left ended)

theorem expected_waits {endTokenId : Token} {reasoner : ReasoningParser}
    {prompt generated newTokenIds : List Token} (outside : reasoner.isReasoningEnd prompt = false)
    (absent : endTokenId ∉ generated) (last : endTokenId ∉ newTokenIds.dropLast) :
    expected (some reasoner) endTokenId prompt (generated ++ newTokenIds) =
      expected (some reasoner) endTokenId prompt generated := by
  have open' : ¬ reasoner.isReasoningEnd prompt = true := by
    rw [outside]
    exact Bool.false_ne_true
  rw [expected, expected, if_neg open', if_neg open', afterMarker_without endTokenId _ absent]
  by_cases empty : newTokenIds = []
  · rw [empty, append_nil, afterMarker_without endTokenId _ absent]
  · apply afterMarker_last
    rw [dropLast_append_of_ne_nil empty, mem_append, not_or]
    exact ⟨absent, last⟩

theorem advanceGrammar_invariant (outside : config.manager.enableInReasoning = false)
    (streams : ∀ reasoner, config.manager.reasoner = some reasoner → ∀ ids delta,
      reasoner.isReasoningEndStreaming ids delta = decide (endTokenId ∈ delta))
    {generated : List Token} (newTokenIds : List Token) {tracked : Tracked Grammar}
    {structured : StructuredOutputRequest Grammar}
    (prompt : tracked.request.promptTokenIds = promptTokenIds)
    (tokens : tracked.request.allTokenIds = base ++ (generated ++ newTokenIds))
    (passed : tracked.passed =
      expected config.manager.reasoner endTokenId (promptTokenIds.getD []) generated)
    (ended : ∀ reasoner, config.manager.reasoner = some reasoner →
      structured.reasoningEnded ≠ none ∧ (structured.reasoningEnded = some true ↔
        ReasoningOver reasoner endTokenId (promptTokenIds.getD []) generated))
    (current : ∀ entry ∈ tracked.inFlight, entry.filled = false →
      entry.isPrefillChunk = tracked.request.isPrefillChunk)
    (meets : structured.reasoningEnded ≠ some true →
      endTokenId ∉ newTokenIds.dropLast ∧
        (endTokenId ∈ deltaIds tracked.request ↔ endTokenId ∈ newTokenIds)) :
    ∃ structured', Invariant config endTokenId promptTokenIds base (generated ++ newTokenIds)
      (advanceGrammar config tracked structured newTokenIds) structured' := by
  rw [advanceGrammar]
  cases kind : config.manager.reasoner with
  | none =>
    have always : shouldAdvance config.manager tracked.request structured = (true, structured) := by
      rw [shouldAdvance, kind]
    simp only [always, if_true]
    refine ⟨_, rfl, prompt, tokens, ?_, ?_, ?_, current, ?_⟩
    · simp only [passed, kind, expected]
    · intro reasoner thinks
      rw [kind] at thinks
      cases thinks
    · intro reasoner thinks
      rw [kind] at thinks
      cases thinks
    · intro _ _ _ _ thinks
      exact absurd kind thinks
  | some reasoner =>
    obtain ⟨known, iffOver⟩ := ended reasoner kind
    rw [kind] at passed
    rw [shouldAdvance_cases kind outside (streams reasoner kind)]
    by_cases ending : structured.reasoningEnded = some true
    · -- The reasoning was over before: all new tokens are passed on.
      have already := iffOver.mp ending
      rw [if_pos ending]
      simp only [if_true]
      refine ⟨_, rfl, prompt, tokens, ?_, ?_, ?_, current, ?_⟩
      · rw [kind, expected_append already, passed]
      · intro _ _ nothing
        exact absurd nothing known
      · intro other same _
        obtain rfl := some.inj (kind.symm.trans same)
        constructor
        · intro _
          exact already.imp id fun here => mem_append_left _ here
        · intro _
          exact ending
      · intro _ _ _ _ _
        exact known
    · have open' : ¬ ReasoningOver reasoner endTokenId (promptTokenIds.getD []) generated :=
        fun overNow => ending (iffOver.mpr overNow)
      rw [ReasoningOver, not_or, Bool.not_eq_true] at open'
      obtain ⟨last, sees⟩ := meets ending
      have same := expected_waits open'.1 open'.2 last
      rw [if_neg ending]
      by_cases marker : endTokenId ∈ deltaIds tracked.request
      · -- The step ends the reasoning: its tokens are skipped as a whole.
        rw [if_pos marker]
        refine ⟨_, rfl, prompt, tokens, ?_, ?_, ?_, current, ?_⟩
        · rw [kind, same]
          exact passed
        · intro _ _ nothing
          cases nothing
        · intro other isReasoner _
          constructor
          · intro _
            exact Or.inr (mem_append_right _ (sees.mp marker))
          · intro _
            rfl
        · intro _ _ _ _ _
          exact some_ne_none true
      · rw [if_neg marker]
        refine ⟨_, rfl, prompt, tokens, ?_, ?_, ?_, current, ?_⟩
        · rw [kind, same]
          exact passed
        · intro _ _ nothing
          exact absurd nothing known
        · intro other isReasoner _
          obtain rfl := some.inj (kind.symm.trans isReasoner)
          constructor
          · intro ends
            exact absurd ends ending
          · rintro (inPrompt | inTokens)
            · rw [open'.1] at inPrompt
              cases inPrompt
            · cases mem_append.mp inTokens with
              | inl old => exact absurd old open'.2
              | inr new => exact absurd (sees.mpr new) marker
        · intro _ _ _ _ _
          exact known

omit [StructuredOutputGrammar Grammar] in
theorem withoutRejected_keeps {request : Request Grammar} {numDrafts numSampled : Nat} :
    (withoutRejected request numDrafts numSampled).structuredOutputRequest =
        request.structuredOutputRequest ∧
      (withoutRejected request numDrafts numSampled).promptTokenIds = request.promptTokenIds ∧
      (withoutRejected request numDrafts numSampled).allTokenIds = request.allTokenIds ∧
      (withoutRejected request numDrafts numSampled).isPrefillChunk = request.isPrefillChunk := by
  rw [withoutRejected]
  split
  · exact ⟨rfl, rfl, rfl, rfl⟩
  · exact ⟨rfl, rfl, rfl, rfl⟩

section
variable (outside : config.manager.enableInReasoning = false)
include outside

section
variable (streams : ∀ reasoner, config.manager.reasoner = some reasoner → ∀ ids delta, reasoner.isReasoningEndStreaming ids delta = decide (endTokenId ∈ delta))
include streams

theorem updateFromOutput_invariant
    {generated : List Token} {tracked next : Tracked Grammar}
    {structured : StructuredOutputRequest Grammar}
    (holds : Invariant config endTokenId promptTokenIds base generated tracked structured)
    {sampled : List Token} {kept : Nat} {stopped : Bool}
    (meets : MeetsStep config endTokenId tracked (.updateFromOutput sampled kept stopped))
    (done : updateFromOutput config tracked sampled kept stopped = some next) :
    ∃ generated' structured',
      Invariant config endTokenId promptTokenIds base generated' next structured' := by
  rw [updateFromOutput] at done
  cases inFlight : tracked.inFlight with
  | nil =>
    rw [inFlight] at done
    cases done
  | cons entry rest =>
    rw [inFlight] at done
    simp only at done
    have inOld : ∀ other ∈ rest, other ∈ tracked.inFlight := by
      intro other member
      rw [inFlight]
      exact mem_cons_of_mem _ member
    have received : Invariant config endTokenId promptTokenIds base generated
        { tracked with inFlight := rest } structured :=
      invariant_frame config endTokenId promptTokenIds base holds rfl rfl rfl rfl rfl
        fun other member => ⟨other, inOld other member, rfl, rfl⟩
    by_cases finished : tracked.request.isFinished = true
    · rw [if_pos finished] at done
      obtain rfl := some.inj done
      exact ⟨generated, structured, received⟩
    · rw [if_neg finished] at done
      by_cases nothing : sampled = []
      · rw [if_pos nothing] at done
        obtain rfl := some.inj done
        exact ⟨generated, structured, received⟩
      · rw [if_neg nothing] at done
        split at done
        · cases done
        · rename_i wellFormed
          simp only [not_or, Bool.not_eq_true, Bool.not_eq_false] at wellFormed
          obtain ⟨notChunk, isFilled, _⟩ := wellFormed
          obtain ⟨uses, prompt, tokens, chunk⟩ := withoutRejected_keeps
          split at done
          · obtain rfl := some.inj done
            refine ⟨generated, structured, ?_⟩
            exact invariant_frame config endTokenId promptTokenIds base holds uses prompt tokens
              rfl chunk fun other member => ⟨other, inOld other member, rfl, rfl⟩
          · rename_i keeps
            rw [uses, holds.uses] at done
            obtain rfl := some.inj done
            refine ⟨generated ++ sampled.take kept, ?_⟩
            apply advanceGrammar_invariant config endTokenId promptTokenIds base outside streams
            · exact prompt.trans holds.prompt
            · change (withoutRejected tracked.request _ _).allTokenIds ++ sampled.take kept = _
              rw [tokens, holds.tokens, append_assoc]
            · exact holds.passed
            · intro reasoner thinks
              have known := holds.asked entry (by rw [inFlight]; exact mem_cons_self)
                isFilled notChunk (by rw [thinks]; exact some_ne_none reasoner)
              exact ⟨known, holds.ended reasoner thinks known⟩
            · intro other member unfilled
              exact (holds.current other (inOld other member) unfilled).trans chunk.symm
            · intro open'
              exact meets entry (by rw [inFlight]; rfl) structured holds.uses
                ⟨by rwa [Bool.not_eq_true] at finished, open'⟩ nothing keeps

theorem step_invariant {generated : List Token} {tracked next : Tracked Grammar}
    {structured : StructuredOutputRequest Grammar}
    (holds : Invariant config endTokenId promptTokenIds base generated tracked structured)
    (event : Event) (meets : MeetsStep config endTokenId tracked event)
    (done : step config tracked event = some next) :
    ∃ generated' structured',
      Invariant config endTokenId promptTokenIds base generated' next structured' := by
  have own : ∀ entry ∈ tracked.inFlight, ∃ old ∈ tracked.inFlight,
      old.filled = entry.filled ∧ old.isPrefillChunk = entry.isPrefillChunk :=
    fun entry member => ⟨entry, member, rfl, rfl⟩
  cases event with
  | scheduleRunning numNewTokens =>
    change scheduleRunning config tracked numNewTokens = some next at done
    rw [scheduleRunning] at done
    split at done
    · rename_i guard
      obtain rfl := some.inj done
      refine ⟨generated, structured, ?_⟩
      apply launch_invariant config endTokenId promptTokenIds base holds guard.2.2.1
      · rfl
      · rfl
      · rfl
    · cases done
  | scheduleWaiting numComputedTokens numNewTokens =>
    change scheduleWaiting config tracked numComputedTokens numNewTokens = some next at done
    rw [scheduleWaiting] at done
    split at done
    · rename_i guard
      obtain rfl := some.inj done
      refine ⟨generated, structured, ?_⟩
      apply launch_invariant config endTokenId promptTokenIds base holds guard.2.2.1
      · rfl
      · rfl
      · rfl
    · cases done
  | fillBitmask =>
    exact ⟨generated, fillBitmask_invariant config endTokenId promptTokenIds base outside holds
      done⟩
  | preempt =>
    change preempt tracked = some next at done
    rw [preempt] at done
    split at done
    · obtain rfl := some.inj done
      exact ⟨generated, structured, invariant_frame config endTokenId promptTokenIds base holds
        rfl rfl rfl rfl rfl own⟩
    · cases done
  | resetPreempt =>
    obtain ⟨middle, preempted, rfl⟩ := map_eq_some_iff.mp done
    rw [preempt] at preempted
    split at preempted
    · obtain rfl := some.inj preempted
      exact ⟨generated, structured, invariant_frame config endTokenId promptTokenIds base holds
        rfl rfl rfl rfl rfl own⟩
    · cases preempted
  | updateDraft specTokenIds =>
    obtain ⟨after, updated, rfl⟩ := map_eq_some_iff.mp done
    obtain ⟨grammar, uses, prompt, tokens, chunk⟩ := updateDraft_keeps config endTokenId outside
      streams holds.uses (meets structured holds.uses) updated
    exact ⟨generated, _, regrammar_invariant config endTokenId promptTokenIds base grammar holds
      uses prompt tokens rfl chunk own⟩
  | updateDraftInOutput specTokenIds =>
    change updateDraftTokensInOutput config tracked specTokenIds = some next at done
    rw [updateDraftTokensInOutput] at done
    cases last : tracked.inFlight.getLast? with
    | none =>
      rw [last] at done
      cases done
    | some newest =>
      rw [last] at done
      simp only at done
      split at done
      · obtain rfl := some.inj done
        exact ⟨generated, structured, holds⟩
      · obtain ⟨⟨after, drafts⟩, updated, rfl⟩ := map_eq_some_iff.mp done
        obtain ⟨grammar, uses, prompt, tokens, chunk⟩ := updateDraftInOutput_keeps config
          endTokenId outside streams holds.uses
          (meets structured holds.uses) updated
        refine ⟨generated, _, regrammar_invariant config endTokenId promptTokenIds base grammar
          holds uses prompt tokens rfl chunk ?_⟩
        intro entry member
        cases mem_append.mp member with
        | inl old => exact ⟨entry, (dropLast_sublist _).subset old, rfl, rfl⟩
        | inr new =>
          obtain rfl := mem_singleton.mp new
          exact ⟨newest, mem_of_getLast? last, rfl, rfl⟩
  | updateFromOutput sampled kept stopped =>
    exact updateFromOutput_invariant config endTokenId promptTokenIds base outside streams holds meets done

theorem run_invariant
    (events : List Event) {generated : List Token} {tracked final : Tracked Grammar}
    {structured : StructuredOutputRequest Grammar}
    (holds : Invariant config endTokenId promptTokenIds base generated tracked structured)
    (meets : Meets config endTokenId events tracked)
    (done : run config events tracked = some final) :
    ∃ generated' structured',
      Invariant config endTokenId promptTokenIds base generated' final structured' := by
  induction events generalizing generated tracked structured with
  | nil =>
    obtain rfl := some.inj done
    exact ⟨generated, structured, holds⟩
  | cons event rest ih =>
    rw [run] at done
    cases stepped : step config tracked event with
    | none =>
      rw [stepped] at done
      cases done
    | some next =>
      rw [stepped] at done
      obtain ⟨generated', structured', holdsNow⟩ := step_invariant config endTokenId
        promptTokenIds base outside streams holds event meets.1 stepped
      exact ih holdsNow (meets.2 next stepped) done

end

end

end

def thinking : SchedulerConfig := ⟨twoDrafts (some (baseThinkingParser 8 9)), false⟩

/-- The prompt is computed and the token 5 sampled. -/
def prefill : List Event := [.scheduleWaiting 0 1, .fillBitmask, .updateFromOutput [5] 1 false]

def draftedStep (drafts sampled : List Token) : List Event :=
  [.updateDraft drafts, .scheduleRunning (1 + drafts.length), .fillBitmask,
    .updateFromOutput sampled sampled.length false]

end VllmDcu.GrammarTracking

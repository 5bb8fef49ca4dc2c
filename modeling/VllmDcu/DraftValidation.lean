import VllmDcu.GrammarRows

/-! Draft tokens are validated against the grammar when they come from the worker, before the
bitmask of the step that they are scheduled in. -/
namespace VllmDcu.DraftValidation
open Requests (Token ReqId)
open StructuredOutput StructuredOutputGrammar GrammarBitmask GrammarMasks GrammarRows List Option

/-! The backends keep to the law. -/

theorem popStates_more {State : Type} (state : State) (history : List State) (count : Nat)
    (last previous : State) (rest : List State)
    (popped : popStates state history count = some (last, previous :: rest)) :
    popStates state history (count + 1) = some (previous, rest) := by
  induction count generalizing state history with
  | zero =>
    obtain ⟨_, rfl⟩ := Prod.mk.inj (some.inj popped)
    rfl
  | succ count ih =>
    cases history with
    | nil => cases popped
    | cons first others =>
      exact ih first others popped

section Terminated
variable {Grammar : Type} [StructuredOutputGrammar Grammar]

theorem grammarAfter_terminated (grammar : Grammar) (terminated : (isTerminated grammar).1 = true)
    (tokens : List Token) : grammarAfter grammar tokens = some grammar := by
  induction tokens with
  | nil => rfl
  | cons token rest ih => rw [grammarAfter, advance, if_pos terminated, bind_some, ih]

end Terminated

section Xgrammar
variable {State : Type} {ctx : CompiledGrammar State}

theorem acceptPrefix_pops (matcher : GrammarMatcher ctx) (tokens : List Token) :
    popStates (matcher.acceptPrefix tokens).2.state (matcher.acceptPrefix tokens).2.history
        (matcher.acceptPrefix tokens).1.length = some (matcher.state, matcher.history) ∧
      (matcher.acceptPrefix tokens).2.maxRollbackTokens = matcher.maxRollbackTokens := by
  induction tokens generalizing matcher with
  | nil => exact ⟨rfl, rfl⟩
  | cons token rest ih =>
    rw [GrammarMatcher.acceptPrefix]
    cases accepted : matcher.acceptToken token with
    | none => exact ⟨rfl, rfl⟩
    | some next =>
      obtain ⟨pops, limit⟩ := ih next
      obtain ⟨state, _, rfl⟩ := map_eq_some_iff.mp accepted
      exact ⟨popStates_more _ _ _ _ _ _ pops, limit⟩

theorem xgrammar_accepts {grammar : XgrammarGrammar ctx} (running : grammar.terminated = false)
    {token : Token} {matcher : GrammarMatcher ctx}
    (accepted : grammar.matcher.acceptToken token = some matcher) :
    acceptTokens grammar [token] = (true,
      (⟨matcher, grammar.numProcessedTokens + 1, ctx.isTerminated matcher.state⟩ :
        XgrammarGrammar ctx)) := by
  change XgrammarGrammar.acceptTokens grammar [token] = _
  rw [XgrammarGrammar.acceptTokens, if_neg (by rw [running]; exact Bool.noConfusion)]
  simp only [XgrammarGrammar.acceptLoop, accepted]

theorem xgrammar_valid (grammar : XgrammarGrammar ctx) (tokens : List Token) :
    (grammarAfter grammar (grammar.matcher.acceptPrefix tokens).1).isSome := by
  induction tokens generalizing grammar with
  | nil => rfl
  | cons token rest ih =>
    rw [GrammarMatcher.acceptPrefix]
    cases accepted : grammar.matcher.acceptToken token with
    | none => rfl
    | some next =>
      cases terminated : grammar.terminated with
      | true =>
        rw [grammarAfter_terminated grammar terminated]
        rfl
      | false =>
        have step := xgrammar_accepts terminated accepted
        have running : ¬ (isTerminated grammar).1 = true := by
          change ¬ grammar.terminated = true
          rw [terminated]
          exact Bool.noConfusion
        rw [grammarAfter, advance, if_neg running, step]
        exact ih ⟨next, grammar.numProcessedTokens + 1, ctx.isTerminated next.state⟩

/-- Accepted tokens are counted and can be popped. -/
theorem xgrammar_acceptAll (grammar : XgrammarGrammar ctx) (tokens : List Token)
    (next : XgrammarGrammar ctx) (accepted : acceptAll grammar tokens = some next) :
    popStates next.matcher.state next.matcher.history tokens.length =
        some (grammar.matcher.state, grammar.matcher.history) ∧
      next.matcher.maxRollbackTokens = grammar.matcher.maxRollbackTokens ∧
      next.numProcessedTokens = grammar.numProcessedTokens + tokens.length ∧
      (0 < tokens.length → grammar.terminated = false ∧
        ∃ token, ctx.acceptToken grammar.matcher.state token ≠ none) := by
  induction tokens generalizing grammar with
  | nil =>
    obtain rfl := some.inj accepted
    exact ⟨rfl, rfl, (Int.add_zero _).symm, fun none => absurd none (Nat.lt_irrefl 0)⟩
  | cons token rest ih =>
    rw [acceptAll] at accepted
    cases running : grammar.terminated with
    | true =>
      rw [if_pos (show (isTerminated grammar).1 = true from running)] at accepted
      cases accepted
    | false =>
      have open' : ¬ (isTerminated grammar).1 = true := by
        change ¬ grammar.terminated = true
        rw [running]
        exact Bool.noConfusion
      rw [if_neg open'] at accepted
      cases step : grammar.matcher.acceptToken token with
      | none =>
        have refused : (acceptTokens grammar [token]).1 = false := by
          change (XgrammarGrammar.acceptTokens grammar [token]).1 = false
          rw [XgrammarGrammar.acceptTokens, running, if_neg Bool.false_ne_true]
          simp only [XgrammarGrammar.acceptLoop, step]
        rw [if_neg (by rw [refused]; exact Bool.noConfusion)] at accepted
        cases accepted
      | some matcher =>
        rw [xgrammar_accepts running step] at accepted
        obtain ⟨pops, limit, count, _⟩ := ih _ accepted
        obtain ⟨state, stepped, rfl⟩ := map_eq_some_iff.mp step
        refine ⟨popStates_more _ _ _ _ _ _ pops, limit, ?_, fun _ => ⟨rfl, token, ?_⟩⟩
        · rw [count, length_cons]
          push_cast
          omega
        · rw [stepped]
          exact some_ne_none state

/-- The xgrammar backend over a library that rejects every token after termination. -/
theorem xgrammar_lawful (stops : ∀ state token, ctx.isTerminated state = true →
      ctx.acceptToken state token = none) (limit : Nat) (grammar : XgrammarGrammar ctx)
    (room : limit ≤ grammar.matcher.maxRollbackTokens) : LawfulGrammar limit grammar := by
  constructor
  · intro tokens valid next validated
    change grammar.validateTokens tokens = some (valid, next) at validated
    obtain ⟨pops, same⟩ := acceptPrefix_pops grammar.matcher tokens
    have accepted := xgrammar_valid grammar tokens
    rw [XgrammarGrammar.validateTokens] at validated
    simp only at validated
    split at validated
    · obtain ⟨matcher, rolled, found⟩ := map_eq_some_iff.mp validated
      obtain ⟨rfl, rfl⟩ := Prod.mk.inj found
      rw [GrammarMatcher.rollback] at rolled
      split at rolled
      · cases rolled
      · rw [pops] at rolled
        obtain rfl := some.inj rolled
        refine ⟨?_, accepted⟩
        simp only [same]
    · obtain ⟨rfl, rfl⟩ := Prod.mk.inj (some.inj validated)
      refine ⟨?_, accepted⟩
      have empty : (grammar.matcher.acceptPrefix tokens).1.length = 0 := by omega
      rw [empty] at pops
      obtain ⟨state, history⟩ := Prod.mk.inj (some.inj pops)
      cases grammar with
      | mk matcher count flag =>
        cases matcher with
        | mk state' history' limit' =>
          cases kept : (GrammarMatcher.acceptPrefix ⟨state', history', limit'⟩ tokens).2 with
          | mk one two three =>
            rw [kept] at same state history
            simp only at same state history
            rw [same, state, history]
  · intro tokens next accepted some few
    obtain ⟨pops, limits, count, open'⟩ := xgrammar_acceptAll grammar tokens next accepted
    obtain ⟨running, token, accepts⟩ := open' some
    change next.rollback tokens.length = _
    rw [XgrammarGrammar.rollback, GrammarMatcher.rollback, if_neg (by omega), pops]
    simp only [map_some, Option.some.injEq]
    have notYet : ctx.isTerminated grammar.matcher.state = false := by
      cases ended : ctx.isTerminated grammar.matcher.state with
      | false => rfl
      | true => exact absurd (stops _ token ended) accepts
    cases grammar with
    | mk matcher processed flag =>
      simp only at limits count running notYet ⊢
      rw [limits, running]
      congr 1
      omega

end Xgrammar

section Outlines
variable {State : Type} {index : Index State}

variable (grammar : OutlinesGrammar index)

theorem outlines_validates (accepted tokens : List Token)
    (before : Guide.acceptsTokens index grammar.guide.state accepted = true) :
    Guide.acceptsTokens index grammar.guide.state (grammar.validateTokens accepted tokens) =
      true := by
  induction tokens generalizing accepted with
  | nil => exact before
  | cons token rest ih =>
    rw [OutlinesGrammar.validateTokens]
    by_cases more : Guide.acceptsTokens index grammar.guide.state (accepted ++ [token]) = true
    · rw [if_pos more]
      exact ih _ more
    · rw [if_neg more]
      exact before

theorem outlines_accepts {token : Token} {next : State}
    (step : index.nextState grammar.guide.state token = some next) :
    acceptTokens grammar [token] = (true,
      (⟨{ grammar.guide with
          state := next, history := grammar.guide.state :: grammar.guide.history },
        grammar.numProcessedTokens + 1, grammar.prevFinished⟩ : OutlinesGrammar index)) := by
  change OutlinesGrammar.acceptTokens grammar [token] = _
  have takes : Guide.acceptsTokens index grammar.guide.state [token] = true := by
    simp only [Guide.acceptsTokens, step]
  rw [OutlinesGrammar.acceptTokens, if_pos takes]
  simp [Guide.advance, step]

theorem outlines_refuses (token : Token)
    (stuck : index.nextState grammar.guide.state token = none) :
    (acceptTokens grammar [token]).1 = false := by
  change (OutlinesGrammar.acceptTokens grammar [token]).1 = false
  have refused : ¬ Guide.acceptsTokens index grammar.guide.state [token] = true := by
    simp only [Guide.acceptsTokens, stuck]
    exact Bool.false_ne_true
  rw [OutlinesGrammar.acceptTokens, if_neg refused]

theorem outlines_valid (tokens : List Token)
    (accepted : Guide.acceptsTokens index grammar.guide.state tokens = true) :
    (grammarAfter grammar tokens).isSome := by
  induction tokens generalizing grammar with
  | nil => rfl
  | cons token rest ih =>
    by_cases terminated : (isTerminated grammar).1 = true
    · rw [grammarAfter_terminated grammar terminated]
      rfl
    · rw [Guide.acceptsTokens] at accepted
      cases step : index.nextState grammar.guide.state token with
      | none =>
        rw [step] at accepted
        cases accepted
      | some next =>
        rw [step] at accepted
        rw [grammarAfter, advance, if_neg terminated, outlines_accepts grammar step]
        exact ih _ accepted

theorem outlines_acceptAll (tokens : List Token) (next : OutlinesGrammar index)
    (accepted : acceptAll grammar tokens = some next) :
    popStates next.guide.state next.guide.history tokens.length =
        some (grammar.guide.state, grammar.guide.history) ∧
      next.guide.maxRollback = grammar.guide.maxRollback ∧
      next.numProcessedTokens = grammar.numProcessedTokens + tokens.length ∧
      next.prevFinished = grammar.prevFinished := by
  induction tokens generalizing grammar with
  | nil =>
    obtain rfl := some.inj accepted
    exact ⟨rfl, rfl, (Int.add_zero _).symm, rfl⟩
  | cons token rest ih =>
    rw [acceptAll] at accepted
    by_cases terminated : (isTerminated grammar).1 = true
    · rw [if_pos terminated] at accepted
      cases accepted
    · rw [if_neg terminated] at accepted
      cases step : index.nextState grammar.guide.state token with
      | none =>
        rw [if_neg (by
          rw [outlines_refuses grammar token step]
          exact Bool.false_ne_true)] at accepted
        cases accepted
      | some state =>
        rw [outlines_accepts grammar step] at accepted
        obtain ⟨pops, limit, count, flag⟩ := ih _ accepted
        refine ⟨popStates_more _ _ _ _ _ _ pops, limit, ?_, flag⟩
        rw [count, length_cons]
        push_cast
        omega

/-- A guide that is not finished before or after any draft token asks the same all the time. -/
theorem outlines_steady (drafts : List Token) (fresh : grammar.prevFinished = false)
    (unfinished : ∀ (p : Nat) (next : OutlinesGrammar index),
      grammarAfter grammar ((realDrafts drafts).take p) = some next →
        index.isFinalState next.guide.state = false) : Steady grammar drafts := by
  have kept : ∀ (tokens : List Token) (start next : OutlinesGrammar index),
      grammarAfter start tokens = some next → next.prevFinished = start.prevFinished := by
    intro tokens
    induction tokens with
    | nil =>
      intro start next reached
      obtain rfl := some.inj reached
      rfl
    | cons token rest ih =>
      intro start next reached
      obtain ⟨middle, advanced, later⟩ := bind_eq_some_iff.mp reached
      rw [ih middle next later]
      rw [advance] at advanced
      split at advanced
      · obtain rfl := some.inj advanced
        rfl
      · cases step : index.nextState start.guide.state token with
        | none =>
          rw [if_neg (by
            rw [outlines_refuses start token step]
            exact Bool.false_ne_true)] at advanced
          cases advanced
        | some state =>
          rw [outlines_accepts start step] at advanced
          obtain rfl := some.inj advanced
          rfl
  intro p next reached
  have flag := kept _ grammar next reached
  have final := unfinished p next reached
  change { next with prevFinished := index.isFinalState next.guide.state } = next
  rw [final, ← fresh, ← flag]

end Outlines

/-! Where the scheduled draft tokens come from. -/

/-- The drafts of a request: none, placeholders of the asynchronous scheduler, or tokens that
came through one of the two updates, with the request before that update. Scheduled are the
first tokens that `update_draft_token_ids` has kept. -/
inductive DraftOrigin (Grammar : Type) where
  | nothing
  | placeholders (count : Nat)
  | updated (before : Request Grammar) (proposal : List Token) (count : Nat)
  | inOutput (before : Request Grammar) (scheduled proposal : List Token)

namespace DraftOrigin
variable {Grammar : Type}

def before : DraftOrigin Grammar → Option (Request Grammar)
  | nothing | placeholders _ => none
  | updated before _ _ | inOutput before _ _ => some before

/-- The drafts arrive after the bitmask of their step was filled. -/
def Asked (config : ManagerConfig) (before : Request Grammar) : Prop :=
  ∀ earlier, before.structuredOutputRequest = some earlier →
    config.reasoner = none ∨ config.enableInReasoning = true ∨ earlier.reasoningEnded ≠ none

def Gives [StructuredOutputGrammar Grammar] (config : ManagerConfig)
    (structured : StructuredOutputRequest Grammar) (drafts : List Token) :
    DraftOrigin Grammar → Prop
  | nothing => drafts = []
  | placeholders count => drafts = List.replicate count (-1)
  | updated before proposal count =>
    before.isFinished = false ∧ Asked config before ∧
      ∃ after, updateDraft config before proposal = some after ∧
        after.structuredOutputRequest = some structured ∧ drafts = after.specTokenIds.take count
  | inOutput before scheduled proposal =>
    Asked config before ∧
      ∃ after, updateDraftInOutput config before scheduled proposal = some (after, drafts) ∧
        after.structuredOutputRequest = some structured

/-- The update itself finds the end of the reasoning: it does not validate the drafts, and the
bitmask of the next step applies. -/
def EndsReasoning (config : ManagerConfig) (origin : DraftOrigin Grammar) : Prop :=
  ∃ before earlier, origin.before = some before ∧ before.structuredOutputRequest = some earlier ∧
    earlier.reasoningEnded ≠ some true ∧
    (shouldAdvance config before earlier).2.reasoningEnded = some true

end DraftOrigin

section Origins
variable {Grammar : Type}

/-- A request whose reasoning has not ended before or in the update gets no mask. -/
theorem shouldFill_false {config : ManagerConfig} {before request : Request Grammar}
    {earlier : StructuredOutputRequest Grammar}
    (asked : config.reasoner = none ∨ config.enableInReasoning = true ∨
      earlier.reasoningEnded ≠ none)
    (waits : (shouldAdvance config before earlier).1 = false)
    (calm : ¬ (earlier.reasoningEnded ≠ some true ∧
      (shouldAdvance config before earlier).2.reasoningEnded = some true)) :
    (shouldFillBitmask config request (shouldAdvance config before earlier).2).1 = false := by
  rw [shouldAdvance] at waits calm ⊢
  rw [shouldFillBitmask]
  cases kind : config.reasoner with
  | none =>
    rw [kind] at waits
    cases waits
  | some reasoner =>
    rw [kind] at waits calm asked
    simp only at waits calm ⊢
    by_cases inReasoning : config.enableInReasoning = true
    · rw [if_pos inReasoning] at waits
      cases waits
    · rw [if_neg inReasoning] at waits calm ⊢
      by_cases ended : earlier.reasoningEnded = some true
      · rw [if_pos ended] at waits
        cases waits
      · rw [if_neg ended] at calm ⊢
        have known : earlier.reasoningEnded = some false := by
          cases value : earlier.reasoningEnded with
          | none =>
            rcases asked with missing | on | other
            · cases missing
            · exact absurd on inReasoning
            · exact absurd value other
          | some flag =>
            cases flag with
            | false => rfl
            | true => exact absurd value ended
        split at calm
        · exact absurd ⟨ended, rfl⟩ calm
        · rename_i notYet
          rw [if_neg notYet, if_neg inReasoning]
          simp only [known]

variable [StructuredOutputGrammar Grammar]

theorem accepted_prefix {grammar : Grammar} (valid drafts : List Token)
    (accepted : (grammarAfter grammar valid).isSome) (few : realDrafts drafts <+: valid) :
    Accepted grammar drafts := by
  obtain ⟨rest, rfl⟩ := few
  exact grammarAfter_prefix grammar accepted

omit [StructuredOutputGrammar Grammar] in
theorem realDrafts_padded (tokens : List Token) (count : Nat) :
    realDrafts (tokens ++ List.replicate count (-1)) <+: tokens := by
  induction tokens with
  | nil =>
    cases count with
    | zero => exact prefix_refl _
    | succ count => exact prefix_refl _
  | cons token rest ih =>
    by_cases real : token = -1
    · rw [real]
      exact nil_prefix
    · rw [cons_append, realDrafts_cons real]
      exact (prefix_cons_inj token).mpr ih

variable (config : ManagerConfig)

/-- Drafts that came through an update are accepted when the mask applies. -/
theorem origin_accepted (limit : Nat) (origin : DraftOrigin Grammar) (request : Request Grammar)
    (structured : StructuredOutputRequest Grammar) (drafts : List Token)
    (gives : origin.Gives config structured drafts)
    (lawful : ∀ before earlier, origin.before = some before →
      before.structuredOutputRequest = some earlier → LawfulGrammar limit earlier.grammar)
    (calm : ¬ origin.EndsReasoning config)
    (fills : (shouldFillBitmask config request structured).1 = true) :
    Accepted structured.grammar drafts := by
  cases origin with
  | nothing =>
    rw [show drafts = [] from gives]
    rfl
  | placeholders count =>
    rw [show drafts = replicate count (-1) from gives]
    apply accepted_prefix [] _ rfl
    exact realDrafts_padded [] count
  | updated before proposal count =>
    obtain ⟨live, asked, after, done, uses, rfl⟩ := gives
    rw [updateDraft, if_neg (by rw [live]; exact Bool.false_ne_true)] at done
    by_cases chunk : before.isPrefillChunk = true
    · rw [if_pos chunk] at done
      obtain rfl := some.inj done
      rw [take_nil]
      rfl
    · rw [if_neg chunk] at done
      cases kind : before.structuredOutputRequest with
      | none =>
        rw [kind] at done
        obtain rfl := some.inj done
        cases uses
      | some earlier =>
        rw [kind] at done
        simp only at done
        have grammar : (shouldAdvance config before earlier).2.grammar = earlier.grammar := by
          rw [shouldAdvance]
          repeat' split
          all_goals rfl
        by_cases advances : (shouldAdvance config before earlier).1 = true
        · rw [if_pos advances, grammar] at done
          obtain ⟨⟨valid, next⟩, validated, rfl⟩ := map_eq_some_iff.mp done
          obtain ⟨rfl, accepted⟩ :=
            (lawful before earlier rfl kind).validates proposal valid next validated
          obtain rfl := some.inj uses
          apply accepted_prefix valid _ accepted
          exact (List.takeWhile_prefix _).trans (List.take_prefix _ _)
        · rw [if_neg advances] at done
          obtain rfl := some.inj done
          obtain rfl := some.inj uses
          rw [shouldFill_false (asked earlier kind)
            (by rwa [Bool.not_eq_true] at advances)
            (fun ends => calm ⟨before, earlier, rfl, kind, ends⟩)] at fills
          cases fills
  | inOutput before scheduled proposal =>
    obtain ⟨asked, after, done, uses⟩ := gives
    rw [updateDraftInOutput] at done
    cases kind : before.structuredOutputRequest with
    | none =>
      rw [kind] at done
      obtain ⟨rfl, _⟩ := Prod.mk.inj (some.inj done)
      rw [kind] at uses
      cases uses
    | some earlier =>
      rw [kind] at done
      simp only at done
      have grammar : (shouldAdvance config before earlier).2.grammar = earlier.grammar := by
        rw [shouldAdvance]
        repeat' split
        all_goals rfl
      by_cases advances : (shouldAdvance config before earlier).1 = true
      · rw [if_pos advances, grammar] at done
        obtain ⟨⟨valid, next⟩, validated, found⟩ := map_eq_some_iff.mp done
        obtain ⟨rfl, rfl⟩ := Prod.mk.inj found
        obtain ⟨rfl, accepted⟩ := (lawful before earlier rfl kind).validates _ valid next validated
        obtain rfl := some.inj uses
        exact accepted_prefix valid _ accepted (realDrafts_padded valid _)
      · rw [if_neg advances] at done
        obtain ⟨rfl, _⟩ := Prod.mk.inj (some.inj done)
        obtain rfl := some.inj uses
        rw [shouldFill_false (asked earlier kind)
          (by rwa [Bool.not_eq_true] at advances)
          (fun ends => calm ⟨before, earlier, rfl, kind, ends⟩)] at fills
        cases fills

/-! The composition. -/

/-- A grammar of the step: of a request that gets rows, or of that request when its drafts came. -/
def Held (requests : Requests Grammar) (origins : ReqId → DraftOrigin Grammar) (reqId : ReqId)
    (grammar : Grammar) : Prop :=
  ∃ request structured, (requests.get? reqId = some request ∨
      (origins reqId).before = some request) ∧
    request.structuredOutputRequest = some structured ∧ structured.grammar = grammar

/-- The mask applies at a position of a request, where its grammar has become `reached`. -/
def MaskedBy (config : ManagerConfig) (requests : Requests Grammar) (output : SchedulerOutput)
    (reqId : ReqId) (p : Nat) (reached : Grammar) : Prop :=
  reqId ∈ structuredIds requests output ∧ ∃ request structured,
    requests.get? reqId = some request ∧ request.structuredOutputRequest = some structured ∧
    (shouldFillBitmask config request structured).1 = true ∧
    p ≤ (realDrafts (draftsOf output.scheduledSpecDecodeTokens reqId)).length ∧
    grammarAfter structured.grammar
      ((draftsOf output.scheduledSpecDecodeTokens reqId).take p) = some reached

/-- Every request has the grammar that it had before. -/
def GrammarsKept (requests requests' : Requests Grammar) : Prop :=
  ∀ reqId, (requests'.get? reqId).bind (fun request =>
      request.structuredOutputRequest.map (·.grammar)) =
    (requests.get? reqId).bind fun request => request.structuredOutputRequest.map (·.grammar)

/-- The worker without a bitmask leaves the logits. -/
def maskLogits {Num : Type} (specTokens : Dict ReqId (List Token)) (sent : Option GrammarOutput)
    (reqIds : List ReqId) (logits : List (LogitsRow Num)) : Option (List (LogitsRow Num)) :=
  match sent with
  | none => some logits
  | some output => applyGrammarBitmask specTokens output reqIds logits

omit [StructuredOutputGrammar Grammar] in
theorem settles_grammars (reqIds : List ReqId) (requests requests' : Requests Grammar)
    (settles : Settles config reqIds requests requests') :
    GrammarsKept requests requests' := by
  intro reqId
  rw [settles reqId]
  split
  · cases requests.get? reqId with
    | none => rfl
    | some request =>
      rw [map_some, bind_some, bind_some, settled]
      cases kind : request.structuredOutputRequest with
      | none => simp only [kind]
      | some structured =>
        simp only [map_some, shouldFillBitmask_grammar]
  · rfl

omit [StructuredOutputGrammar Grammar] in
theorem structuredIds_known (requests : Requests Grammar) (output : SchedulerOutput)
    (reqId : ReqId) (member : reqId ∈ structuredIds requests output) :
    ∃ request structured, requests.get? reqId = some request ∧
      request.structuredOutputRequest = some structured := by
  have keeps := (mem_filter.mp member).2
  cases known : requests.get? reqId with
  | none =>
    rw [known] at keeps
    cases keeps
  | some request =>
    rw [known] at keeps
    have uses := (Bool.and_eq_true_iff.mp keeps).1
    obtain ⟨structured, kind⟩ := isSome_iff_exists.mp uses
    exact ⟨request, structured, rfl, kind⟩

/-- The row of a position is the mask of the grammar there, or full. -/
theorem rowsFor_position (requests : Requests Grammar) (output : SchedulerOutput) (reqId : ReqId)
    (member : reqId ∈ structuredIds requests output)
    (accepted : ∀ request structured, requests.get? reqId = some request →
      request.structuredOutputRequest = some structured →
      (shouldFillBitmask config request structured).1 = true →
        Accepted structured.grammar (draftsOf output.scheduledSpecDecodeTokens reqId)) (p : Nat)
    (within : p ≤ (draftsOf output.scheduledSpecDecodeTokens reqId).length) :
    (∃ reached, MaskedBy config requests output reqId p reached ∧
      ((rowsFor config requests output.scheduledSpecDecodeTokens reqId)[p]?).getD fullMask =
        allowedRow reached) ∨
    ((¬ ∃ reached, MaskedBy config requests output reqId p reached) ∧
      ((rowsFor config requests output.scheduledSpecDecodeTokens reqId)[p]?).getD fullMask =
        fullMask) := by
  obtain ⟨request, structured, known, uses⟩ := structuredIds_known requests output reqId member
  have row : ((rowsFor config requests output.scheduledSpecDecodeTokens reqId)[p]?).getD fullMask =
      rowAt (shouldFillBitmask config request structured).1 structured.grammar
        (draftsOf output.scheduledSpecDecodeTokens reqId) p := by
    simp only [rowsFor, known, uses, rowsOf, getElem?_map]
    rw [getElem?_range (by omega), map_some, getD_some]
  rw [row, rowAt]
  by_cases applies : (shouldFillBitmask config request structured).1 = true ∧
      p ≤ (realDrafts (draftsOf output.scheduledSpecDecodeTokens reqId)).length
  · left
    have whole := accepted request structured known uses applies.1
    have same : (draftsOf output.scheduledSpecDecodeTokens reqId).take p =
        (realDrafts (draftsOf output.scheduledSpecDecodeTokens reqId)).take p := by
      obtain ⟨rest, split⟩ := takeWhile_prefix (l := draftsOf output.scheduledSpecDecodeTokens
        reqId) fun token => token != -1
      rw [← realDrafts] at split
      conv_lhs => rw [← split]
      rw [take_append_of_le_length applies.2]
    have some : (grammarAfter structured.grammar
        ((draftsOf output.scheduledSpecDecodeTokens reqId).take p)).isSome := by
      rw [same]
      apply grammarAfter_prefix _
      rw [take_append_drop]
      exact whole
    obtain ⟨reached, found⟩ := isSome_iff_exists.mp some
    refine ⟨reached, ⟨member, request, structured, known, uses, applies.1, applies.2, found⟩, ?_⟩
    rw [if_pos applies, found, map_some, getD_some]
  · right
    refine ⟨?_, if_neg applies⟩
    rintro ⟨reached, _, request', structured', known', uses', fills, below, _⟩
    obtain rfl := some.inj (known.symm.trans known')
    obtain rfl := some.inj (uses.symm.trans uses')
    exact applies ⟨fills, below⟩

end Origins

/-! Runs on two small grammars. -/

/-- Two tokens after the first are optional: 1, 2 and 3 in this order. -/
def optionalEnd : Index Nat where
  nextState state token := if state < 3 ∧ token = state + 1 then some (state + 1) else none
  isFinalState state := decide (0 < state)
  allowedTokens state token := decide (state < 3 ∧ token = state + 1)

def oneRequest {Grammar : Type} (promptTokenIds : List Token) (numComputedTokens : Int)
    (reasoningEnded : Option Bool) (grammar : Grammar) : Request Grammar where
  promptTokenIds := some promptTokenIds
  allTokenIds := promptTokenIds
  numComputedTokens := numComputedTokens
  numOutputPlaceholders := 0
  isPrefillChunk := false
  specTokenIds := []
  structuredOutputRequest := some ⟨grammar, reasoningEnded⟩
  isFinished := false

def oneStep (drafts : List Token) : SchedulerOutput :=
  ⟨Dict.empty.set 7 (1 + drafts.length), Dict.empty.set 7 drafts, true⟩

def twoDrafts (reasoner : Option ReasoningParser) : ManagerConfig := ⟨reasoner, false, 1, 2, 128, 16⟩

def freshOutlines : OutlinesGrammar optionalEnd := ⟨⟨0, [], 2⟩, 0, false⟩

/-- The tokens 1, 2 and 3 in this order, and then the end. -/
def threeTokens : CompiledGrammar Nat where
  acceptToken state token := if state < 3 ∧ token = state + 1 then some (state + 1) else none
  isTerminated state := decide (3 ≤ state)
  nextTokenBitmask state token := decide (state < 3 ∧ token = state + 1)

def freshXgrammar : XgrammarGrammar threeTokens := ⟨⟨0, [], 2⟩, 0, false⟩

/-- A request whose computed tokens were reset when its load failed: the update looks at the whole
prompt, finds the end marker of an earlier turn and keeps the draft 4 without asking the grammar.
The next bitmask applies, and the assertion on the draft fails. -/
theorem draft_rejected :
    (updateDraft (twoDrafts (some (baseThinkingParser 8 9)))
        (oneRequest [9, 8, 3] 0 (some false) freshXgrammar) [4]).map
          (fun request => (request.specTokenIds,
            request.structuredOutputRequest.bind (·.reasoningEnded))) =
        some ([4], some true) ∧
      getGrammarBitmask (twoDrafts (some (baseThinkingParser 8 9))) List.flatten
        (Dict.empty.set 7 (oneRequest [9, 8, 3] 3 (some true) freshXgrammar)) none (oneStep [4]) =
          none := by
  constructor
  · rfl
  · rfl

def validated : Request (XgrammarGrammar threeTokens) :=
  { oneRequest [5] 0 none freshXgrammar with specTokenIds := [1, 2] }

end VllmDcu.DraftValidation

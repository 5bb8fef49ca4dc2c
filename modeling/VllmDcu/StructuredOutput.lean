import VllmDcu.Requests

/-! Structured output: the grammar of a request, the bitmask that the scheduler fills for
the scheduled requests, and the validation of draft tokens. The grammar library is a
deterministic matcher with a history to roll back. -/
namespace VllmDcu.StructuredOutput
open Requests (Token ReqId)

/-- One row of the bitmask: the tokens whose bit is set. -/
abbrev Row := Token → Bool

/-- The row with all bits set. -/
def fullMask : Row := fun _ => true

/-- The interface of the backends. `acceptTokens` answers whether the tokens were accepted,
`none` is an exception. -/
class StructuredOutputGrammar (Grammar : Type) where
  acceptTokens : Grammar → List Token → Bool × Grammar
  validateTokens : Grammar → List Token → Option (List Token × Grammar)
  rollback : Grammar → Nat → Option Grammar
  fillBitmask : Grammar → Row
  isTerminated : Grammar → Bool × Grammar

open StructuredOutputGrammar

/-- The state some accepted tokens ago, and the history before it. -/
def popStates {State : Type} (state : State) (history : List State) :
    Nat → Option (State × List State)
  | 0 => some (state, history)
  | count + 1 =>
    match history with
    | [] => none
    | previous :: history => popStates previous history count
termination_by structural count => count

/-! The xgrammar backend. -/

/-- A compiled grammar of the library. -/
structure CompiledGrammar (State : Type) where
  acceptToken : State → Token → Option State
  isTerminated : State → Bool
  nextTokenBitmask : State → Row

structure GrammarMatcher {State : Type} (ctx : CompiledGrammar State) where
  state : State
  history : List State
  maxRollbackTokens : Nat

namespace GrammarMatcher
variable {State : Type} {ctx : CompiledGrammar State}

def acceptToken (matcher : GrammarMatcher ctx) (token : Token) : Option (GrammarMatcher ctx) :=
  (ctx.acceptToken matcher.state token).map fun state =>
    { matcher with state := state, history := matcher.state :: matcher.history }

def rollback (matcher : GrammarMatcher ctx) (numTokens : Nat) : Option (GrammarMatcher ctx) :=
  if numTokens > matcher.maxRollbackTokens then none
  else
    (popStates matcher.state matcher.history numTokens).map fun (state, history) =>
      { matcher with state := state, history := history }

/-- The longest prefix of the tokens that the matcher accepts, and the matcher after it. -/
def acceptPrefix (matcher : GrammarMatcher ctx) : List Token → List Token × GrammarMatcher ctx
  | [] => ([], matcher)
  | token :: rest =>
    match matcher.acceptToken token with
    | none => ([], matcher)
    | some next => ((acceptPrefix next rest).1.cons token, (acceptPrefix next rest).2)

end GrammarMatcher

structure XgrammarGrammar {State : Type} (ctx : CompiledGrammar State) where
  matcher : GrammarMatcher ctx
  numProcessedTokens : Int
  terminated : Bool

namespace XgrammarGrammar
variable {State : Type} {ctx : CompiledGrammar State}

/-- The loop of `accept_tokens`. -/
def acceptLoop (grammar : XgrammarGrammar ctx) : List Token → Bool × XgrammarGrammar ctx
  | [] => (true, { grammar with terminated := ctx.isTerminated grammar.matcher.state })
  | token :: rest =>
    match grammar.matcher.acceptToken token with
    | none => (false, grammar)
    | some matcher =>
      acceptLoop
        { grammar with
          matcher := matcher, numProcessedTokens := grammar.numProcessedTokens + 1 } rest

def acceptTokens (grammar : XgrammarGrammar ctx) (tokens : List Token) :
    Bool × XgrammarGrammar ctx :=
  if grammar.terminated then (false, grammar) else grammar.acceptLoop tokens

def validateTokens (grammar : XgrammarGrammar ctx) (tokens : List Token) :
    Option (List Token × XgrammarGrammar ctx) :=
  let (acceptedTokens, matcher) := grammar.matcher.acceptPrefix tokens
  if acceptedTokens.length > 0 then
    (matcher.rollback acceptedTokens.length).map fun matcher =>
      (acceptedTokens, { grammar with matcher := matcher })
  else some (acceptedTokens, { grammar with matcher := matcher })

def rollback (grammar : XgrammarGrammar ctx) (numTokens : Nat) : Option (XgrammarGrammar ctx) :=
  (grammar.matcher.rollback numTokens).map fun matcher =>
    { matcher := matcher
      numProcessedTokens := grammar.numProcessedTokens - numTokens
      terminated := ctx.isTerminated matcher.state }

instance : StructuredOutputGrammar (XgrammarGrammar ctx) where
  acceptTokens := acceptTokens
  validateTokens := validateTokens
  rollback := rollback
  fillBitmask grammar := ctx.nextTokenBitmask grammar.matcher.state
  isTerminated grammar := (grammar.terminated, grammar)

end XgrammarGrammar

/-! The outlines backend. -/

/-- An index of the library: a finite automaton over tokens. -/
structure Index (State : Type) where
  nextState : State → Token → Option State
  isFinalState : State → Bool
  allowedTokens : State → Row

structure Guide {State : Type} (index : Index State) where
  state : State
  history : List State
  maxRollback : Nat

namespace Guide
variable {State : Type} {index : Index State}

def acceptsTokens (index : Index State) (state : State) : List Token → Bool
  | [] => true
  | token :: rest =>
    match index.nextState state token with
    | none => false
    | some next => acceptsTokens index next rest

/-- `advance`, which the callers only make for accepted tokens. -/
def advance (guide : Guide index) (token : Token) : Guide index :=
  match index.nextState guide.state token with
  | none => guide
  | some next => { guide with state := next, history := guide.state :: guide.history }

def rollbackState (guide : Guide index) (n : Nat) : Option (Guide index) :=
  if n > guide.maxRollback then none
  else
    (popStates guide.state guide.history n).map fun (state, history) =>
      { guide with state := state, history := history }

end Guide

structure OutlinesGrammar {State : Type} (index : Index State) where
  guide : Guide index
  numProcessedTokens : Int
  prevFinished : Bool

namespace OutlinesGrammar
variable {State : Type} {index : Index State}

def acceptTokens (grammar : OutlinesGrammar index) (tokens : List Token) :
    Bool × OutlinesGrammar index :=
  if Guide.acceptsTokens index grammar.guide.state tokens then
    (true, { grammar with
      guide := tokens.foldl Guide.advance grammar.guide
      numProcessedTokens := grammar.numProcessedTokens + tokens.length })
  else (false, grammar)

def validateTokens (grammar : OutlinesGrammar index) (accepted : List Token) :
    List Token → List Token
  | [] => accepted
  | tok :: rest =>
    if Guide.acceptsTokens index grammar.guide.state (accepted ++ [tok]) then
      validateTokens grammar (accepted ++ [tok]) rest
    else accepted

def rollback (grammar : OutlinesGrammar index) (numTokens : Nat) : Option (OutlinesGrammar index) :=
  (grammar.guide.rollbackState numTokens).map fun guide =>
    { grammar with
      guide := guide, numProcessedTokens := grammar.numProcessedTokens - numTokens }

/-- The answer of the call before, which is replaced. -/
def isTerminated (grammar : OutlinesGrammar index) : Bool × OutlinesGrammar index :=
  (grammar.prevFinished, { grammar with prevFinished := index.isFinalState grammar.guide.state })

instance : StructuredOutputGrammar (OutlinesGrammar index) where
  acceptTokens := acceptTokens
  validateTokens grammar tokens := some (grammar.validateTokens [] tokens, grammar)
  rollback := rollback
  fillBitmask grammar := index.allowedTokens grammar.guide.state
  isTerminated := isTerminated

end OutlinesGrammar

/-! Requests and the manager. -/

structure StructuredOutputRequest (Grammar : Type) where
  grammar : Grammar
  reasoningEnded : Option Bool

structure Request (Grammar : Type) where
  promptTokenIds : Option (List Token)
  allTokenIds : List Token
  numComputedTokens : Int
  numOutputPlaceholders : Int
  isPrefillChunk : Bool
  specTokenIds : List Token
  structuredOutputRequest : Option (StructuredOutputRequest Grammar)
  isFinished : Bool

def Request.useStructuredOutput {Grammar : Type} (request : Request Grammar) : Bool :=
  request.structuredOutputRequest.isSome

structure ReasoningParser where
  isReasoningEnd : List Token → Bool
  isReasoningEndStreaming : List Token → List Token → Bool

/-- `BaseThinkingReasoningParser`. The last of the two markers decides. -/
def baseThinkingParser (startTokenId endTokenId : Token) : ReasoningParser where
  isReasoningEnd inputIds :=
    match inputIds.reverse.find? fun token => token = startTokenId ∨ token = endTokenId with
    | none => false
    | some token => decide (token ≠ startTokenId)
  isReasoningEndStreaming _ deltaIds := decide (endTokenId ∈ deltaIds)

structure ManagerConfig where
  reasoner : Option ReasoningParser
  enableInReasoning : Bool
  maxNumSeqs : Nat
  numSpeculativeTokens : Nat
  fillBitmaskParallelThreshold : Nat
  fillBitmaskParallelBatchSize : Nat

variable {Grammar : Type}

/-- `should_fill_bitmask`, with the request's structured output. -/
def shouldFillBitmask (config : ManagerConfig) (request : Request Grammar)
    (structured : StructuredOutputRequest Grammar) : Bool × StructuredOutputRequest Grammar :=
  match config.reasoner with
  | none => (true, structured)
  | some reasoner =>
    if config.enableInReasoning then (true, structured)
    else
      match structured.reasoningEnded with
      | some ended => (ended, structured)
      | none =>
        let ended := reasoner.isReasoningEnd (request.promptTokenIds.getD [])
        (ended, { structured with reasoningEnded := some ended })

/-- The tokens that `should_advance` looks at. -/
def deltaIds (request : Request Grammar) : List Token :=
  let deltaFrom := request.numComputedTokens - request.numOutputPlaceholders
  let start :=
    if deltaFrom ≥ 0 then deltaFrom else max (request.allTokenIds.length + deltaFrom) 0
  request.allTokenIds.drop start.toNat

/-- `should_advance` of a structured output request. -/
def shouldAdvance (config : ManagerConfig) (request : Request Grammar)
    (structured : StructuredOutputRequest Grammar) : Bool × StructuredOutputRequest Grammar :=
  match config.reasoner with
  | none => (true, structured)
  | some reasoner =>
    if config.enableInReasoning then (true, structured)
    else if structured.reasoningEnded = some true then (true, structured)
    else if reasoner.isReasoningEndStreaming request.allTokenIds (deltaIds request) then
      (false, { structured with reasoningEnded := some true })
    else (false, structured)

end VllmDcu.StructuredOutput

import VllmDcu.TextSearch

/-! The incremental detokenizer: text, stop strings and the text offset of a
stream of deltas. Decoding one token is the tokenizer's own code: a parameter
that reads all tokens so far and keeps a state of its own. -/
namespace VllmDcu.Detokenizer
open TextSearch

/-- The stop strings of a request; an empty one is rejected with the request. -/
structure StopStrings where
  stop : List (List Char)
  nonempty : [] ∉ stop

theorem StopStrings.none_empty : [] ∉ ([] : List (List Char)) := List.not_mem_nil

/-- `decoder` is `none` for a request that is not detokenized. -/
structure IncrementalDetokenizer (State : Type) where
  decoder : Option State
  stop : StopStrings
  minTokens : Nat
  includeStopStrInOutput : Bool
  promptLen : Nat
  tokenIds : List Nat
  outputText : List Char
  lastOutputTextOffset : Nat

variable {State : Type}

def maxLength (strings : List (List Char)) : Nat := (strings.map List.length).foldr max 0

/-- Number of chars to hold back when stop strings are to be excluded from
streamed output. -/
def IncrementalDetokenizer.stopBufferLength (self : IncrementalDetokenizer State) : Nat :=
  if self.stop.stop ≠ [] ∧ self.includeStopStrInOutput = false then
    maxLength self.stop.stop - 1
  else 0

def IncrementalDetokenizer.outputTokenIds (self : IncrementalDetokenizer State) : List Nat :=
  self.tokenIds.drop self.promptLen

def IncrementalDetokenizer.numOutputTokens (self : IncrementalDetokenizer State) : Nat :=
  self.tokenIds.length - self.promptLen

/-- `str.find` with a start that may be negative, counted from the end. -/
def findFrom (text pattern : List Char) (start : Int) : Option Nat :=
  let from_ := if start < 0 then ((text.length : Int) + start).toNat else start.toNat
  if text.length < from_ then none else (find pattern (text.drop from_)).map (from_ + ·)

/-- Returns the matched stop string and the length to which the text is cut, which
is `none` for no truncation. -/
def checkStopStrings (outputText : List Char) (newCharCount : Nat) (stop : List (List Char))
    (includeInOutput : Bool) : Option (List Char × Option Nat) :=
  if newCharCount = 0 then none
  else stop.findSome? fun stopStr =>
    match findFrom outputText stopStr (1 - (newCharCount : Int) - (stopStr.length : Int)) with
    | none => none
    | some stopIndex =>
      if includeInOutput then
        if outputText.length ≤ stopIndex + stopStr.length then some (stopStr, none)
        else some (stopStr, some (stopIndex + stopStr.length))
      else some (stopStr, some stopIndex)

/-- The locals of the loop over the new tokens. -/
structure Decoding (State : Type) where
  decoder : State
  tokenIds : List Nat
  outputText : List Char
  stopCheckOffset : Nat

/-- Append a token and its text; below `min_tokens` the stop check starts later. -/
def decodeStep (decodeNext : State → List Nat → Nat → List Char × State) (minTokens promptLen : Nat)
    (loop : Decoding State) (newTokenId : Nat) : Decoding State :=
  let tokenIds := loop.tokenIds ++ [newTokenId]
  let decoded := decodeNext loop.decoder tokenIds newTokenId
  let outputText := loop.outputText ++ decoded.1
  { decoder := decoded.2
    tokenIds := tokenIds
    outputText := outputText
    stopCheckOffset :=
      if minTokens ≠ 0 ∧ tokenIds.length - promptLen ≤ minTokens then outputText.length
      else loop.stopCheckOffset }

/-- Detokenize the new tokens; if stop-terminated, the last token is kept but not
decoded. Returns where the check for stop strings starts. -/
def IncrementalDetokenizer.decode (decodeNext : State → List Nat → Nat → List Char × State)
    (self : IncrementalDetokenizer State) (decoder : State) (newTokenIds : List Nat)
    (stopTerminated : Bool) : IncrementalDetokenizer State × Nat :=
  let skip := stopTerminated && !self.includeStopStrInOutput
  let loop := (if skip then newTokenIds.dropLast else newTokenIds).foldl
    (decodeStep decodeNext self.minTokens self.promptLen)
    ⟨decoder, self.tokenIds, self.outputText, self.outputText.length⟩
  ({ self with
      decoder := some loop.decoder
      tokenIds := loop.tokenIds ++ (if skip then newTokenIds.getLast?.toList else [])
      outputText := loop.outputText }, loop.stopCheckOffset)

/-- Evaluate the stop strings and cut the text. -/
def IncrementalDetokenizer.evaluateStop (self : IncrementalDetokenizer State)
    (stopCheckOffset : Nat) : IncrementalDetokenizer State × Option (List Char) :=
  if self.stop.stop ≠ [] ∧ self.minTokens < self.numOutputTokens then
    match checkStopStrings self.outputText (self.outputText.length - stopCheckOffset)
      self.stop.stop self.includeStopStrInOutput with
    | none => (self, none)
    | some (stopString, none) => (self, some stopString)
    | some (stopString, some truncateTo) =>
      ({ self with outputText := self.outputText.take truncateTo }, some stopString)
  else (self, none)

/-- Returns the matched stop string, if any. -/
def IncrementalDetokenizer.update (decodeNext : State → List Nat → Nat → List Char × State)
    (self : IncrementalDetokenizer State) (newTokenIds : List Nat) (stopTerminated : Bool) :
    IncrementalDetokenizer State × Option (List Char) :=
  match self.decoder with
  | none => ({ self with tokenIds := self.tokenIds ++ newTokenIds }, none)
  | some decoder =>
    if newTokenIds = [] then (self, none)
    else
      let decoded := self.decode decodeNext decoder newTokenIds stopTerminated
      decoded.1.evaluateStop decoded.2

/-- If `delta`, only new text since the last call is returned. -/
def IncrementalDetokenizer.getNextOutputText (self : IncrementalDetokenizer State)
    (finished delta : Bool) : List Char × IncrementalDetokenizer State :=
  match self.decoder with
  | none => ([], self)
  | some _ =>
    let bufferLength := if finished then 0 else self.stopBufferLength
    let length := self.outputText.length - bufferLength
    if delta then
      if self.lastOutputTextOffset < length then
        ((self.outputText.take length).drop self.lastOutputTextOffset,
          { self with lastOutputTextOffset := length })
      else ([], self)
    else (self.outputText.take length, self)

@[simp] theorem getNextOutputText_stop (self : IncrementalDetokenizer State) (finished delta : Bool) :
    (self.getNextOutputText finished delta).2.stop = self.stop := by
  unfold IncrementalDetokenizer.getNextOutputText
  cases self.decoder with
  | none => rfl
  | some decoder =>
    cases delta with
    | false => rfl
    | true =>
      simp only [↓reduceIte]
      generalize (if finished = true then 0 else self.stopBufferLength) = bufferLength
      split <;> rfl

theorem evaluateStop_stop (self : IncrementalDetokenizer State) (stopCheckOffset : Nat) :
    (self.evaluateStop stopCheckOffset).1.stop = self.stop := by
  unfold IncrementalDetokenizer.evaluateStop
  split
  · split <;> rfl
  · rfl

@[simp] theorem update_stop (decodeNext : State → List Nat → Nat → List Char × State)
    (self : IncrementalDetokenizer State) (newTokenIds : List Nat) (stopTerminated : Bool) :
    (self.update decodeNext newTokenIds stopTerminated).1.stop = self.stop := by
  unfold IncrementalDetokenizer.update
  split
  · rfl
  · split
    · rfl
    · exact evaluateStop_stop _ _

/-- Without stop strings none is found. -/
theorem update_noStop {decodeNext : State → List Nat → Nat → List Char × State}
    {self : IncrementalDetokenizer State} {newTokenIds : List Nat} (stopTerminated : Bool)
    (noStop : self.stop.stop = []) :
    (self.update decodeNext newTokenIds stopTerminated).2 = none := by
  unfold IncrementalDetokenizer.update
  split
  · rfl
  · split
    · rfl
    · simp [IncrementalDetokenizer.evaluateStop, IncrementalDetokenizer.decode, noStop]

end VllmDcu.Detokenizer

import VllmDcu.Requests
import VllmDcu.TextSearch
import Mathlib.Data.List.Count

/-! The HYV3 reasoning parser: the split of a whole output at its thinking markers,
and the split of each delta by the token ids seen so far. A token's text is what
it contributes to the output. -/
namespace VllmDcu.ReasoningParser
open Requests TextSearch List

abbrev Text := List Char

structure DeltaMessage where
  reasoning : Option Text
  content : Option Text
  deriving DecidableEq

/-- `delta_text.find(pattern)`. -/
def findIndex (text pattern : Text) : Int :=
  match find pattern text with
  | none => -1
  | some index => index

/-- `text[start:stop]`. -/
def slice (text : Text) (start stop : Int) : Text :=
  (text.take (sliceBound text.length stop)).drop (sliceBound text.length start)

def sliceFrom (text : Text) (start : Int) : Text := text.drop (sliceBound text.length start)

/-- A piece that is left out when it is empty. -/
def nonempty (text : Text) : Option Text := if text = [] then none else some text

/-! The parser classes. -/

structure Parser where
  startTokenId : Token
  endTokenId : Token
  identityParser : Bool

def startToken : Text := "<think>".toList
def endToken : Text := "</think>".toList

/-- `HYV3ReasoningParser.__init__`: without a reasoning effort there is no thinking. -/
def Parser.init (vocab : String → Option Token) (chatReasoningEffort reasoningEffort : Option String) :
    Option Parser :=
  let given (effort : Option String) : Option String := effort.filter (· ≠ "")
  let effort := ((given chatReasoningEffort).or (given reasoningEffort)).getD "no_think"
  match vocab (String.ofList startToken), vocab (String.ofList endToken) with
  | some startTokenId, some endTokenId => some ⟨startTokenId, endTokenId, effort == "no_think"⟩
  | _, _ => none

/-- `BaseThinkingReasoningParser.extract_reasoning_streaming`. -/
def baseExtractReasoningStreaming (parser : Parser) (deltaText : Text)
    (previousTokenIds deltaTokenIds : List Token) : Option DeltaMessage :=
  if deltaTokenIds = [parser.startTokenId] ∨ deltaTokenIds = [parser.endTokenId] then none
  else if parser.startTokenId ∈ previousTokenIds then
    if parser.endTokenId ∈ deltaTokenIds then
      let endIndex := findIndex deltaText endToken
      some ⟨some (slice deltaText 0 endIndex),
        nonempty (sliceFrom deltaText (endIndex + endToken.length))⟩
    else if parser.endTokenId ∈ previousTokenIds then some ⟨none, some deltaText⟩
    else some ⟨some deltaText, none⟩
  else if parser.startTokenId ∈ deltaTokenIds then
    if parser.endTokenId ∈ deltaTokenIds then
      let startIndex := findIndex deltaText startToken
      let endIndex := findIndex deltaText endToken
      some ⟨some (slice deltaText (startIndex + startToken.length) endIndex),
        nonempty (sliceFrom deltaText (endIndex + endToken.length))⟩
    else some ⟨some deltaText, none⟩
  else some ⟨none, some deltaText⟩

/-- `BaseThinkingReasoningParser.extract_reasoning`. -/
def baseExtractReasoning (modelOutput : Text) : Option Text × Option Text :=
  let parts := partition startToken modelOutput
  let modelOutput := if parts.2.1 ≠ [] then parts.2.2 else parts.1
  match find endToken modelOutput with
  | none => (some modelOutput, none)
  | some _ =>
    let parts := partition endToken modelOutput
    (some parts.1, nonempty parts.2.2)

/-- `HYV3ReasoningParser.extract_reasoning_streaming`: without a start token the
base class calls everything content, and its result is taken again. -/
def extractReasoningStreaming (parser : Parser) (deltaText : Text)
    (previousTokenIds deltaTokenIds : List Token) : Option DeltaMessage :=
  if parser.identityParser then
    if deltaText = [] then none else some ⟨none, some deltaText⟩
  else
    match baseExtractReasoningStreaming parser deltaText previousTokenIds deltaTokenIds with
    | none => none
    | some ret =>
      if parser.startTokenId ∉ previousTokenIds ∧ parser.startTokenId ∉ deltaTokenIds then
        if parser.endTokenId ∈ deltaTokenIds then
          let endIndex := findIndex deltaText endToken
          some ⟨some (slice deltaText 0 endIndex),
            nonempty (sliceFrom deltaText (endIndex + endToken.length))⟩
        else if parser.endTokenId ∈ previousTokenIds then some ⟨none, some deltaText⟩
        else some ⟨some deltaText, none⟩
      else some ret

def extractReasoning (parser : Parser) (modelOutput : Text) : Option Text × Option Text :=
  if parser.identityParser then (none, some modelOutput) else baseExtractReasoning modelOutput

/-! Streams of deltas. -/

def textOf (tokenText : Token → Text) (tokens : List Token) : Text := tokens.flatMap tokenText

theorem textOf_append (tokenText : Token → Text) (front back : List Token) :
    textOf tokenText (front ++ back) = textOf tokenText front ++ textOf tokenText back :=
  flatMap_append

theorem textOf_cons (tokenText : Token → Text) (token : Token) (rest : List Token) :
    textOf tokenText (token :: rest) = tokenText token ++ textOf tokenText rest :=
  flatMap_cons

def reasoningOf (message : Option DeltaMessage) : Text := (message.bind (·.reasoning)).getD []

def contentOf (message : Option DeltaMessage) : Text := (message.bind (·.content)).getD []

/-- The concatenated reasoning and content pieces of the remaining deltas. -/
def streamPieces (parser : Parser) (tokenText : Token → Text) :
    List Token → List (List Token) → Text × Text
  | _, [] => ([], [])
  | previousTokenIds, delta :: rest =>
    let message := extractReasoningStreaming parser (textOf tokenText delta) previousTokenIds delta
    let later := streamPieces parser tokenText (previousTokenIds ++ delta) rest
    (reasoningOf message ++ later.1, contentOf message ++ later.2)

/-- The markers are tokens, and thinking is enabled. -/
structure Thinks (parser : Parser) (tokenText : Token → Text) : Prop where
  enabled : parser.identityParser = false
  startText : tokenText parser.startTokenId = startToken
  endText : tokenText parser.endTokenId = endToken

theorem startTag : Tag '<' startToken := ⟨rfl, by decide⟩

theorem endTag : Tag '<' endToken := ⟨rfl, by decide⟩

theorem Thinks.distinct {parser : Parser} {tokenText : Token → Text}
    (thinks : Thinks parser tokenText) : parser.startTokenId ≠ parser.endTokenId := by
  intro same
  have texts : startToken = endToken := by rw [← thinks.startText, ← thinks.endText, same]
  revert texts
  decide

/-! The cut of one delta at its end marker. -/

@[simp] theorem sliceBound_within (length bound : Nat) (within : bound ≤ length) :
    sliceBound length (bound : Int) = bound := by
  exact Nat.min_eq_left within

theorem nonempty_getD (text : Text) : (nonempty text).getD [] = text := by
  cases text with
  | nil => rfl
  | cons first rest => rfl

theorem contentOf_nonempty (reasoning : Option Text) (content : Text) :
    contentOf (some ⟨reasoning, nonempty content⟩) = content := nonempty_getD content

theorem findIndex_clean (front back : Text) (absent : ¬ endToken <:+: front) :
    findIndex (front ++ endToken ++ back) endToken = front.length := by
  rw [findIndex, endTag.find_after back absent]

/-- A marker's text among the ordinary tokens is found first. -/
theorem findIndex_early {front back : Text} (present : endToken <:+: front) :
    ∃ index : Nat, findIndex (front ++ endToken ++ back) endToken = index ∧
      index + endToken.length ≤ front.length := by
  cases found : find endToken front with
  | none => exact absurd present (find_eq_none_iff.mp found)
  | some index =>
    refine ⟨index, ?_, ?_⟩
    · simp [findIndex, find_append_left endToken front _ index found]
    · exact find_le endToken front index found

theorem slice_front (lead front back : Text) :
    slice (lead ++ front ++ endToken ++ back) lead.length (lead ++ front).length = front := by
  unfold slice
  rw [sliceBound_within _ _ (by simp), sliceBound_within _ _ (by simp),
    append_assoc (lead ++ front), take_left, drop_left]

theorem sliceFrom_back {front back : Text} :
    sliceFrom (front ++ endToken ++ back) ((front.length : Int) + endToken.length) = back := by
  unfold sliceFrom
  rw [← Int.natCast_add, ← length_append, sliceBound_within _ _ (by simp), drop_left]

theorem sliceFrom_early {front back : Text} {index : Nat}
    (within : index + endToken.length ≤ front.length) :
    endToken <:+: sliceFrom (front ++ endToken ++ back) ((index : Int) + endToken.length) := by
  unfold sliceFrom
  rw [← Int.natCast_add, sliceBound_within _ _ (by simp; omega), append_assoc,
    drop_append_of_le_length within]
  exact ⟨front.drop (index + endToken.length), back, by simp⟩

/-! Deltas without the start marker. -/

/-- The tokens before and after the end marker. -/
def beforeEnd (parser : Parser) (tokens : List Token) : List Token :=
  tokens.takeWhile (· ≠ parser.endTokenId)

def afterEnd (parser : Parser) (tokens : List Token) : List Token :=
  (tokens.dropWhile (· ≠ parser.endTokenId)).tail

theorem beforeEnd_append {parser : Parser} (front back : List Token)
    (absent : parser.endTokenId ∉ front) :
    beforeEnd parser (front ++ back) = front ++ beforeEnd parser back ∧
      afterEnd parser (front ++ back) = afterEnd parser back := by
  have ordinary : ∀ token ∈ front, decide (token ≠ parser.endTokenId) = true := by
    intro token member
    rw [decide_eq_true_eq]
    rintro rfl
    exact absent member
  unfold beforeEnd afterEnd
  rw [takeWhile_append_of_pos ordinary, dropWhile_append_of_pos ordinary]
  exact ⟨rfl, rfl⟩

theorem beforeEnd_marker {parser : Parser} {front back : List Token}
    (absent : parser.endTokenId ∉ front) :
    beforeEnd parser (front ++ parser.endTokenId :: back) = front ∧
      afterEnd parser (front ++ parser.endTokenId :: back) = back := by
  obtain ⟨before, after⟩ := beforeEnd_append front (parser.endTokenId :: back) absent
  rw [before, after]
  simp [beforeEnd, afterEnd]

section
variable (parser : Parser) (tokenText : Token → Text) (thinks : Thinks parser tokenText)
include thinks

variable (previousTokenIds : List Token)

/-- With thinking enabled and no start marker in the delta, the base class and the
override treat it alike, whether or not the start marker came before. -/
theorem streaming_unstarted (delta : List Token) (unstarted : parser.startTokenId ∉ delta) :
    extractReasoningStreaming parser (textOf tokenText delta) previousTokenIds delta =
      if delta = [parser.endTokenId] then none
      else if parser.endTokenId ∈ delta then
        let endIndex := findIndex (textOf tokenText delta) endToken
        some ⟨some (slice (textOf tokenText delta) 0 endIndex),
          nonempty (sliceFrom (textOf tokenText delta) (endIndex + endToken.length))⟩
      else if parser.endTokenId ∈ previousTokenIds then some ⟨none, some (textOf tokenText delta)⟩
      else some ⟨some (textOf tokenText delta), none⟩ := by
  have notStart : delta ≠ [parser.startTokenId] := by
    rintro rfl
    exact unstarted mem_cons_self
  unfold extractReasoningStreaming baseExtractReasoningStreaming
  simp only [thinks.enabled, Bool.false_eq_true, if_false, notStart, false_or, unstarted,
    not_false_eq_true, and_true]
  by_cases single : delta = [parser.endTokenId]
  · simp [single]
  · by_cases started : parser.startTokenId ∈ previousTokenIds
    · by_cases ends : parser.endTokenId ∈ delta
      · simp [single, started, ends]
      · by_cases ended : parser.endTokenId ∈ previousTokenIds
        · simp [single, started, ends, ended]
        · simp [single, started, ends, ended]
    · simp [single, started]

/-- Behind the end marker everything is content. -/
theorem streamPieces_ended (deltas : List (List Token))
    (unstarted : ∀ delta ∈ deltas, parser.startTokenId ∉ delta)
    (ended : parser.endTokenId ∈ previousTokenIds)
    (once : ∀ delta ∈ deltas, parser.endTokenId ∉ delta) :
    streamPieces parser tokenText previousTokenIds deltas = ([], textOf tokenText deltas.flatten) := by
  induction deltas generalizing previousTokenIds with
  | nil => rfl
  | cons delta rest ih =>
    have ends := once delta mem_cons_self
    have single : delta ≠ [parser.endTokenId] := by
      rintro rfl
      exact ends mem_cons_self
    rw [streamPieces, streaming_unstarted parser tokenText thinks previousTokenIds delta
      (unstarted delta mem_cons_self), if_neg single, if_neg ends, if_pos ended]
    rw [ih (previousTokenIds ++ delta) (fun other member => unstarted other (mem_cons_of_mem _ member))
      (mem_append_left _ ended) (fun other member => once other (mem_cons_of_mem _ member))]
    simp [reasoningOf, contentOf, textOf_append]

omit thinks in
/-- The delta with the end marker, after a lead that is no reasoning: it is cut at
the marker unless the marker's text occurs before. -/
theorem endDelta_pieces (lead front back : Text)
    (leadFree : endToken <:+: lead ++ front → endToken <:+: front) :
    let text := lead ++ front ++ endToken ++ back
    let message : DeltaMessage := ⟨some (slice text lead.length (findIndex text endToken)),
      nonempty (sliceFrom text (findIndex text endToken + endToken.length))⟩
    (reasoningOf (some message) = front ∧ contentOf (some message) = back) ∨
      (endToken <:+: contentOf (some message) ∧ endToken <:+: front) := by
  intro text message
  by_cases present : endToken <:+: lead ++ front
  · obtain ⟨index, found, within⟩ := findIndex_early present
    right
    refine ⟨?_, leadFree present⟩
    rw [contentOf_nonempty, found]
    exact sliceFrom_early within
  · have found := findIndex_clean (lead ++ front) back present
    left
    constructor
    · change slice text lead.length (findIndex text endToken) = front
      rw [found]
      exact slice_front lead front back
    · rw [contentOf_nonempty, found]
      exact sliceFrom_back

omit thinks in
/-- A token that occurs at most once splits its list in one way. -/
theorem split_once {token : Token} {tokens : List Token} (member : token ∈ tokens)
    (once : tokens.count token ≤ 1) :
    ∃ front back, tokens = front ++ token :: back ∧ token ∉ front ∧ token ∉ back := by
  obtain ⟨front, back, rfl⟩ := append_of_mem member
  rw [count_append, count_cons_self] at once
  refine ⟨front, back, rfl, ?_, ?_⟩
  · exact count_eq_zero.mp (by omega)
  · exact count_eq_zero.mp (by omega)

theorem textOf_marker (front back : List Token) :
    textOf tokenText (front ++ parser.endTokenId :: back) =
      textOf tokenText front ++ endToken ++ textOf tokenText back := by
  rw [textOf_append, textOf_cons, thinks.endText, append_assoc]

/-- What the pieces of the deltas should be, or an end marker's text among the content. -/
def SplitPieces (tokens : List Token) (pieces : Text × Text) : Prop :=
  pieces = (textOf tokenText (beforeEnd parser tokens), textOf tokenText (afterEnd parser tokens)) ∨
    (endToken <:+: pieces.2 ∧ endToken <:+: textOf tokenText (beforeEnd parser tokens))

omit thinks in
/-- A message for the delta of the end marker, and the content of the deltas behind it. -/
theorem endDelta_split {front back : List Token} {rest : List (List Token)}
    (absent : parser.endTokenId ∉ front) (reasoning content : Text)
    (cut : reasoning = textOf tokenText front ∧ content = textOf tokenText back ∨
      (endToken <:+: content ∧ endToken <:+: textOf tokenText front)) :
    SplitPieces parser tokenText (front ++ parser.endTokenId :: back ++ rest.flatten)
      (reasoning ++ [], content ++ textOf tokenText rest.flatten) := by
  rw [append_assoc, cons_append]
  obtain ⟨before, after⟩ := beforeEnd_marker absent
  unfold SplitPieces
  rw [before, after, textOf_append, append_nil]
  rcases cut with ⟨rfl, rfl⟩ | ⟨inContent, inFront⟩
  · exact Or.inl rfl
  · exact Or.inr ⟨inContent.trans (prefix_append _ _).isInfix, inFront⟩

theorem streamPieces_open (deltas : List (List Token))
    (unstarted : ∀ delta ∈ deltas, parser.startTokenId ∉ delta)
    (notEnded : parser.endTokenId ∉ previousTokenIds)
    (once : deltas.flatten.count parser.endTokenId ≤ 1) :
    SplitPieces parser tokenText deltas.flatten
      (streamPieces parser tokenText previousTokenIds deltas) := by
  induction deltas generalizing previousTokenIds with
  | nil => exact Or.inl rfl
  | cons delta rest ih =>
    have restUnstarted : ∀ other ∈ rest, parser.startTokenId ∉ other :=
      fun other member => unstarted other (mem_cons_of_mem _ member)
    rw [flatten_cons, count_append] at once
    rw [streamPieces, streaming_unstarted parser tokenText thinks previousTokenIds delta
      (unstarted delta mem_cons_self)]
    by_cases ends : parser.endTokenId ∈ delta
    · have here : 1 ≤ delta.count parser.endTokenId := one_le_count_iff.mpr ends
      obtain ⟨front, back, rfl, notFront, notBack⟩ := split_once ends (by omega)
      have restOnce : ∀ other ∈ rest, parser.endTokenId ∉ other := by
        intro other member inside
        have : 1 ≤ rest.flatten.count parser.endTokenId :=
          one_le_count_iff.mpr (mem_flatten.mpr ⟨other, member, inside⟩)
        omega
      rw [streamPieces_ended parser tokenText thinks _ rest restUnstarted
        (mem_append_right _ ends) restOnce]
      apply endDelta_split parser tokenText notFront
      by_cases single : front ++ parser.endTokenId :: back = [parser.endTokenId]
      · -- The marker alone gives no message, and there is nothing around it.
        have sides : front = [] ∧ back = [] := by
          have lengths := congrArg length single
          simp only [length_append, length_cons, length_nil] at lengths
          exact ⟨length_eq_zero_iff.mp (by omega), length_eq_zero_iff.mp (by omega)⟩
        rw [if_pos single, sides.1, sides.2]
        exact Or.inl ⟨rfl, rfl⟩
      · rw [if_neg single, if_pos ends]
        simp only [textOf_marker parser tokenText thinks]
        exact endDelta_pieces [] (textOf tokenText front) (textOf tokenText back) id
    · have single : delta ≠ [parser.endTokenId] := by
        rintro rfl
        exact ends mem_cons_self
      obtain ⟨before, after⟩ := beforeEnd_append delta rest.flatten ends
      rw [if_neg single, if_neg ends, if_neg notEnded, flatten_cons]
      unfold SplitPieces
      rw [before, after, textOf_append]
      have stillOpen : parser.endTokenId ∉ previousTokenIds ++ delta := by simp [notEnded, ends]
      rcases ih (previousTokenIds ++ delta) restUnstarted stillOpen (by omega) with
        clean | ⟨inContent, inFront⟩
      · left
        rw [clean]
        rfl
      · right
        exact ⟨inContent, inFront.trans (suffix_append _ _).isInfix⟩

end

/-! The agreement. -/

/-- The tokens behind the start marker. -/
def body (parser : Parser) (tokens : List Token) : List Token :=
  if tokens.head? = some parser.startTokenId then tokens.tail else tokens

def Unmarked (text : Text) : Prop := ¬ startToken <:+: text ∧ ¬ endToken <:+: text

/-- The pieces of the deltas are the split of the whole output, and neither marker is left. -/
structure Agrees (parser : Parser) (tokenText : Token → Text) (tokens : List Token)
    (deltas : List (List Token)) : Prop where
  reasoning : (streamPieces parser tokenText [] deltas).1 =
    (extractReasoning parser (textOf tokenText tokens)).1.getD []
  content : (streamPieces parser tokenText [] deltas).2 =
    (extractReasoning parser (textOf tokenText tokens)).2.getD []
  unmarkedReasoning : Unmarked (streamPieces parser tokenText [] deltas).1
  unmarkedContent : Unmarked (streamPieces parser tokenText [] deltas).2

/-- The start marker comes alone or with the end marker in its delta. -/
def StartStandsAlone (parser : Parser) (deltas : List (List Token)) : Prop :=
  ∀ delta rest, deltas = delta :: rest → parser.startTokenId ∈ delta →
    delta = [parser.startTokenId] ∨ parser.endTokenId ∈ delta

/-- The ordinary tokens do not spell a marker. -/
def OrdinaryText (parser : Parser) (tokenText : Token → Text) (tokens : List Token) : Prop :=
  Unmarked (textOf tokenText (beforeEnd parser (body parser tokens))) ∧
    Unmarked (textOf tokenText (afterEnd parser (body parser tokens)))

section
variable (parser : Parser) (tokenText : Token → Text) (thinks : Thinks parser tokenText)

theorem startToken_behind (rest : Text) : endToken <:+: startToken ++ rest ↔ endToken <:+: rest :=
  endTag.infix_tag_iff startTag (by decide) (by decide)

theorem endToken_behind (rest : Text) : startToken <:+: endToken ++ rest ↔ startToken <:+: rest :=
  startTag.infix_tag_iff endTag (by decide) (by decide)

include thinks

theorem streaming_started (delta : List Token) (started : parser.startTokenId ∈ delta)
    (more : delta ≠ [parser.startTokenId]) (notEnd : delta ≠ [parser.endTokenId]) :
    extractReasoningStreaming parser (textOf tokenText delta) [] delta =
      if parser.endTokenId ∈ delta then
        let text := textOf tokenText delta
        some ⟨some (slice text (findIndex text startToken + startToken.length)
            (findIndex text endToken)),
          nonempty (sliceFrom text (findIndex text endToken + endToken.length))⟩
      else some ⟨some (textOf tokenText delta), none⟩ := by
  unfold extractReasoningStreaming baseExtractReasoningStreaming
  by_cases ends : parser.endTokenId ∈ delta
  · simp [thinks.enabled, more, notEnd, started, ends]
  · simp [thinks.enabled, more, notEnd, started, ends]

variable (tokens : List Token)

/-- The pieces split the tokens behind the start marker when it stands alone; else
its text is among the reasoning. -/
theorem streamPieces_split (deltas : List (List Token)) (first : parser.startTokenId ∉ tokens.tail)
    (once : tokens.count parser.endTokenId ≤ 1) (nonempty : ∀ delta ∈ deltas, delta ≠ [])
    (parts : deltas.flatten = tokens) :
    (StartStandsAlone parser deltas →
      SplitPieces parser tokenText (body parser tokens) (streamPieces parser tokenText [] deltas)) ∧
    (¬ StartStandsAlone parser deltas →
      startToken <:+: (streamPieces parser tokenText [] deltas).1) := by
  cases deltas with
  | nil =>
    subst parts
    constructor
    · intro _
      exact Or.inl rfl
    · intro beside
      exact absurd (fun delta rest same => by contradiction) beside
  | cons delta rest =>
    obtain ⟨token, more, rfl⟩ := exists_cons_of_ne_nil (nonempty delta mem_cons_self)
    subst parts
    simp only [flatten_cons, cons_append, tail_cons] at first once
    have restUnstarted : ∀ other ∈ rest, parser.startTokenId ∉ other := by
      intro other member inside
      exact first (mem_append_right _ (mem_flatten.mpr ⟨other, member, inside⟩))
    have moreUnstarted : parser.startTokenId ∉ more :=
      fun inside => first (mem_append_left _ inside)
    by_cases started : token = parser.startTokenId
    · subst started
      have behind : body parser ((parser.startTokenId :: more) :: rest).flatten =
          more ++ rest.flatten := by
        simp [body]
      have onceBehind : more.count parser.endTokenId + rest.flatten.count parser.endTokenId ≤ 1 := by
        rwa [count_cons_of_ne thinks.distinct, count_append] at once
      have notEnd : parser.startTokenId :: more ≠ [parser.endTokenId] := by
        intro same
        exact thinks.distinct (cons.inj same).1
      rw [behind]
      by_cases alone : more = []
      · subst alone
        have silent : extractReasoningStreaming parser
            (textOf tokenText [parser.startTokenId]) [] [parser.startTokenId] = none := by
          simp [extractReasoningStreaming, baseExtractReasoningStreaming, thinks.enabled]
        constructor
        · intro _
          rw [streamPieces, silent]
          apply streamPieces_open parser tokenText thinks _ rest restUnstarted
          · simpa using thinks.distinct.symm
          · simpa using onceBehind
        · intro beside
          refine absurd ?_ beside
          intro other others same _
          rw [← (cons.inj same).1]
          exact Or.inl rfl
      · have notAlone : parser.startTokenId :: more ≠ [parser.startTokenId] := by
          simpa using alone
        rw [streamPieces, streaming_started parser tokenText thinks _ mem_cons_self notAlone
          notEnd]
        by_cases ends : parser.endTokenId ∈ more
        · have here : 1 ≤ more.count parser.endTokenId := one_le_count_iff.mpr ends
          obtain ⟨front, back, rfl, notFront, notBack⟩ := split_once ends (by omega)
          have restOnce : ∀ other ∈ rest, parser.endTokenId ∉ other := by
            intro other member inside
            have : 1 ≤ rest.flatten.count parser.endTokenId :=
              one_le_count_iff.mpr (mem_flatten.mpr ⟨other, member, inside⟩)
            omega
          have endsHere := mem_cons_of_mem parser.startTokenId ends
          constructor
          · intro _
            rw [if_pos endsHere, streamPieces_ended parser tokenText thinks _ rest restUnstarted
              (mem_append_right _ endsHere) restOnce]
            apply endDelta_split parser tokenText notFront
            have text : textOf tokenText
                (parser.startTokenId :: (front ++ parser.endTokenId :: back)) =
                  startToken ++ textOf tokenText front ++ endToken ++ textOf tokenText back := by
              rw [textOf_cons, textOf_marker parser tokenText thinks, thinks.startText]
              simp
            have startIndex : findIndex (startToken ++ textOf tokenText front ++ endToken ++
                textOf tokenText back) startToken = 0 := by
              rfl
            simp only [text, startIndex, Int.zero_add]
            exact endDelta_pieces startToken (textOf tokenText front) (textOf tokenText back)
              (startToken_behind _).mp
          · intro beside
            refine absurd ?_ beside
            intro other others same _
            rw [← (cons.inj same).1]
            exact Or.inr endsHere
        · have noEnd : parser.endTokenId ∉ parser.startTokenId :: more := by
            simp [ends, thinks.distinct.symm]
          constructor
          · intro alone
            rcases alone _ rest rfl mem_cons_self with only | ended
            · exact absurd only notAlone
            · exact absurd ended noEnd
          · intro _
            rw [if_neg noEnd, textOf_cons, thinks.startText]
            exact ⟨[], _, by simp [reasoningOf]; rfl⟩
    · have behind : body parser ((token :: more) :: rest).flatten = ((token :: more) :: rest).flatten := by
        simp [body, started]
      have unstarted : ∀ other ∈ (token :: more) :: rest, parser.startTokenId ∉ other := by
        intro other member
        rcases mem_cons.mp member with rfl | later
        · simp [moreUnstarted, Ne.symm started]
        · exact restUnstarted other later
      constructor
      · intro _
        rw [behind]
        apply streamPieces_open parser tokenText thinks [] _ unstarted (by simp)
        simpa using once
      · intro beside
        refine absurd ?_ beside
        intro other others same member
        rw [← (cons.inj same).1] at member
        exact absurd member (unstarted _ mem_cons_self)

omit thinks in
/-- The tokens are those before the end marker, and the marker and those after it
if it occurs. -/
theorem tokens_split :
    (parser.endTokenId ∉ tokens ∧ beforeEnd parser tokens = tokens ∧ afterEnd parser tokens = []) ∨
      tokens = beforeEnd parser tokens ++ parser.endTokenId :: afterEnd parser tokens := by
  induction tokens with
  | nil => exact Or.inl ⟨not_mem_nil, rfl, rfl⟩
  | cons token rest ih =>
    by_cases here : token = parser.endTokenId
    · subst here
      simp [beforeEnd, afterEnd]
    · obtain ⟨before, after⟩ := beforeEnd_append [token] rest (by simpa using Ne.symm here)
      rw [singleton_append] at before after
      rw [before, after]
      rcases ih with ⟨absent, whole, none⟩ | split
      · left
        exact ⟨by simp [Ne.symm here, absent], by simp [whole], none⟩
      · right
        rw [singleton_append, cons_append, ← split]

/-- The split of a whole output whose ordinary tokens spell no marker. -/
theorem extractReasoning_ordinary (ordinary : OrdinaryText parser tokenText tokens) :
    (extractReasoning parser (textOf tokenText tokens)).1.getD [] =
        textOf tokenText (beforeEnd parser (body parser tokens)) ∧
      (extractReasoning parser (textOf tokenText tokens)).2.getD [] =
        textOf tokenText (afterEnd parser (body parser tokens)) := by
  obtain ⟨reasoning, content⟩ := ordinary
  have unmarked : ¬ startToken <:+: textOf tokenText (body parser tokens) := by
    rcases tokens_split parser (body parser tokens) with ⟨_, whole, _⟩ | split
    · rw [← whole]
      exact reasoning.1
    · rw [split, textOf_marker parser tokenText thinks, append_assoc,
        startTag.infix_append_iff (endTag.head_append _),
        endToken_behind]
      simp [reasoning.1, content.1]
  -- The start marker is removed if it is there, and nothing else is taken for it.
  have removed : (if (partition startToken (textOf tokenText tokens)).2.1 ≠ [] then
      (partition startToken (textOf tokenText tokens)).2.2
      else (partition startToken (textOf tokenText tokens)).1) =
        textOf tokenText (body parser tokens) := by
    by_cases started : tokens.head? = some parser.startTokenId
    · obtain ⟨rest, rfl⟩ := head?_eq_some_iff.mp started
      have text : textOf tokenText (parser.startTokenId :: rest) =
          [] ++ startToken ++ textOf tokenText rest := by
        rw [textOf_cons, thinks.startText, nil_append]
      have absent : ¬ startToken <:+: [] := by
        rw [infix_nil]
        exact startTag.ne_nil
      rw [text, startTag.partition_after _ absent, if_pos startTag.ne_nil]
      simp [body]
    · have same : body parser tokens = tokens := by simp [body, started]
      rw [same] at unmarked ⊢
      simp [partition_absent _ _ unmarked]
  have enabled := thinks.enabled
  simp only [extractReasoning, enabled, Bool.false_eq_true, if_false, baseExtractReasoning, removed]
  rcases tokens_split parser (body parser tokens) with ⟨_, whole, none⟩ | split
  · rw [whole] at reasoning ⊢
    rw [none, find_eq_none_iff.mpr reasoning.2]
    exact ⟨rfl, rfl⟩
  · have text : textOf tokenText (body parser tokens) =
        textOf tokenText (beforeEnd parser (body parser tokens)) ++ endToken ++
          textOf tokenText (afterEnd parser (body parser tokens)) := by
      rw [← textOf_marker parser tokenText thinks, ← split]
    rw [text, endTag.find_after _ reasoning.2, endTag.partition_after _ reasoning.2]
    exact ⟨rfl, nonempty_getD _⟩

/-- The streamed pieces agree with the split of the whole output exactly when the
start marker is not streamed together with reasoning that goes on, and the
ordinary tokens spell no marker. -/
theorem stream_agrees_iff (tokens : List Token) (deltas : List (List Token))
    (first : parser.startTokenId ∉ tokens.tail) (once : tokens.count parser.endTokenId ≤ 1)
    (nonempty : ∀ delta ∈ deltas, delta ≠ []) (parts : deltas.flatten = tokens) :
    Agrees parser tokenText tokens deltas ↔
      StartStandsAlone parser deltas ∧ OrdinaryText parser tokenText tokens := by
  obtain ⟨split, leaks⟩ :=
    streamPieces_split parser tokenText thinks tokens deltas first once nonempty parts
  constructor
  · intro agrees
    have alone : StartStandsAlone parser deltas := by
      by_contra beside
      exact agrees.unmarkedReasoning.1 (leaks beside)
    refine ⟨alone, ?_⟩
    rcases split alone with same | ⟨inContent, _⟩
    · constructor
      · have unmarked := agrees.unmarkedReasoning
        rwa [same] at unmarked
      · have unmarked := agrees.unmarkedContent
        rwa [same] at unmarked
    · exact absurd inContent agrees.unmarkedContent.2
  · rintro ⟨alone, ordinary⟩
    obtain ⟨reasoning, content⟩ := extractReasoning_ordinary parser tokenText thinks tokens ordinary
    rcases split alone with same | ⟨_, inReasoning⟩
    · refine ⟨?_, ?_, ?_, ?_⟩
      · rw [same, reasoning]
      · rw [same, content]
      · rw [same]
        exact ordinary.1
      · rw [same]
        exact ordinary.2
    · exact absurd inReasoning ordinary.1.2

end

/-! A vocabulary of four tokens: the markers and two words. -/

def wordParser : Parser := ⟨0, 1, false⟩

def wordText : Token → Text
  | 0 => startToken
  | 1 => endToken
  | 2 => "why".toList
  | _ => "so".toList

theorem wordParser_thinks : Thinks wordParser wordText := ⟨rfl, rfl, rfl⟩

theorem separateDeltas_agree : Agrees wordParser wordText [0, 2, 1, 3] [[0], [2, 1, 3]] := by
  apply (stream_agrees_iff wordParser wordText wordParser_thinks [0, 2, 1, 3] [[0], [2, 1, 3]]
    (by decide) (by decide) (by decide) rfl).mpr
  refine ⟨?_, ?_⟩
  · intro delta rest same _
    exact Or.inl (List.cons.inj same).1.symm
  · trivial

/-- Start marker and first word in one delta: the marker is streamed as reasoning. -/
theorem startWithWord_not_agrees :
    ¬ ∀ (parser : Parser) (tokenText : Token → Text), Thinks parser tokenText →
      ∀ (tokens : List Token) (deltas : List (List Token)), parser.startTokenId ∉ tokens.tail →
        tokens.count parser.endTokenId ≤ 1 → (∀ delta ∈ deltas, delta ≠ []) →
          deltas.flatten = tokens → Agrees parser tokenText tokens deltas := by
  intro agrees
  have same := (agrees wordParser wordText wordParser_thinks [0, 2, 1, 3] [[0, 2], [1, 3]]
    (by decide) (by decide) (by decide) rfl).reasoning
  revert same
  decide

end VllmDcu.ReasoningParser

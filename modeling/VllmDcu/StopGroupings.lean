import VllmDcu.TextEnds
import VllmDcu.DeltaText

/-! Stop strings and the grouping of tokens into updates: one token at a time and several at once
agree exactly when the stop string that an update picks ends in it as early as any other. -/
namespace VllmDcu.StopGroupings
open TextSearch TextEnds Detokenizer DeltaText List Option

variable {State : Type} (decodeNext : State → List Nat → Nat → List Char × State)

/-- The updates of one request; the engine stops after the one that reports a stop string.
`stopTerminated` belongs to the last update. -/
def feed (self : IncrementalDetokenizer State) : List (List Nat) → Bool →
    IncrementalDetokenizer State × Option (List Char)
  | [], _ => (self, none)
  | newTokenIds :: rest, stopTerminated =>
    let updated := self.update decodeNext newTokenIds (rest.isEmpty && stopTerminated)
    match updated.2 with
    | none => feed updated.1 rest stopTerminated
    | some stopString => (updated.1, some stopString)

/-- What the tokens say when nothing stops them, and where their end of `min_tokens` is. -/
def spoken (self : IncrementalDetokenizer State) (tokens : List Nat) :
    IncrementalDetokenizer State × Nat :=
  match self.decoder with
  | some decoder => self.decode decodeNext decoder tokens false
  | none => (self, self.outputText.length)

/-- The text is cut before the stop string, or after it when it is included. -/
def cutAt (self : IncrementalDetokenizer State) (stopString : List Char) (place : Nat) : Nat :=
  if self.includeStopStrInOutput then place else place - stopString.length

/-- The tokens of the updates that are decoded: a stop token that ends the last one is not. -/
def decodedGroups (groups : List (List Nat)) (skip : Bool) : List (List Nat) :=
  if skip then groups.dropLast ++ [(groups.getLast?.getD []).dropLast] else groups

/-- The text has no stop string that ends after the `min_tokens`-th token, but for a matched one that
is to be included. -/
def NoStop (self : IncrementalDetokenizer State) (offset : Nat)
    (result : IncrementalDetokenizer State × Option (List Char)) : Prop :=
  ∀ stopString ∈ self.stop.stop,
    (self.includeStopStrInOutput = true → result.2 ≠ some stopString) →
    ∀ place, offset < place → ¬ EndsAt result.1.outputText stopString place

/-- The grouping makes no difference, and the text is as it should be. -/
def Independent (self : IncrementalDetokenizer State) (groups : List (List Nat))
    (stopTerminated : Bool) : Prop :=
  let grouped := feed decodeNext self groups stopTerminated
  let single := feed decodeNext self (groups.flatten.map fun token => [token]) stopTerminated
  grouped.2 = single.2 ∧ grouped.1.outputText = single.1.outputText ∧
    NoStop self (spoken decodeNext self (decodedGroups groups
      (stopTerminated && !self.includeStopStrInOutput)).flatten).2 grouped

/-- Of the stop strings that end in these tokens, the first listed one ends in no later token than any
other, and no other one ends before the cut. -/
def Orderly (self : IncrementalDetokenizer State) (tokens : List Nat) : Prop :=
  let said := spoken decodeNext self tokens
  ∀ stopString place,
    firstListed said.1.outputText said.2 self.stop.stop = some (stopString, place) →
    ∀ other ∈ self.stop.stop, ∀ otherPlace, said.2 < otherPlace →
      EndsAt said.1.outputText other otherPlace →
      (∀ i, otherPlace ≤ (spoken decodeNext self (tokens.take i)).1.outputText.length →
        place ≤ (spoken decodeNext self (tokens.take i)).1.outputText.length) ∧
      (other ≠ stopString → cutAt self stopString place < otherPlace)

/-- The first update in which a stop string ends is orderly. -/
def Settled (self : IncrementalDetokenizer State) : List (List Nat) → Prop
  | [] => True
  | tokens :: rest =>
    Orderly decodeNext self tokens ∧
      (firstListed (spoken decodeNext self tokens).1.outputText
        (spoken decodeNext self tokens).2 self.stop.stop = none →
        Settled (spoken decodeNext self tokens).1 rest)

variable {decodeNext} {self : IncrementalDetokenizer State}

/-! Decoding. -/

/-- The next token is still one of the `min_tokens`. -/
def Spares (self : IncrementalDetokenizer State) : Prop :=
  self.minTokens ≠ 0 ∧ self.tokenIds.length + 1 - self.promptLen ≤ self.minTokens

theorem foldl_offset (decodeNext : State → List Nat → Nat → List Char × State)
    (minTokens promptLen : Nat) (tokens : List Nat) (decoder : State)
    (tokenIds : List Nat) (outputText : List Char) (first second : Nat) :
    ∃ decoder' outputText' first' second',
      tokens.foldl (decodeStep decodeNext minTokens promptLen) ⟨decoder, tokenIds, outputText, first⟩ =
        ⟨decoder', tokenIds ++ tokens, outputText', first'⟩ ∧
      tokens.foldl (decodeStep decodeNext minTokens promptLen)
        ⟨decoder, tokenIds, outputText, second⟩ =
          ⟨decoder', tokenIds ++ tokens, outputText', second'⟩ ∧
      (tokens ≠ [] → minTokens ≠ 0 ∧ tokenIds.length + 1 - promptLen ≤ minTokens →
        first' = second') ∧
      (¬ (minTokens ≠ 0 ∧ tokenIds.length + 1 - promptLen ≤ minTokens) →
        first' = first ∧ second' = second) := by
  induction tokens generalizing decoder tokenIds outputText first second with
  | nil =>
    refine ⟨decoder, outputText, first, second, ?_, ?_, fun empty => absurd rfl empty,
      fun _ => ⟨rfl, rfl⟩⟩
    · rw [foldl_nil, append_nil]
    · rw [foldl_nil, append_nil]
  | cons token rest ih =>
    rw [foldl_cons, foldl_cons]
    by_cases spares : minTokens ≠ 0 ∧ tokenIds.length + 1 - promptLen ≤ minTokens
    · have step (offset : Nat) : decodeStep decodeNext minTokens promptLen
          ⟨decoder, tokenIds, outputText, offset⟩ token =
            ⟨(decodeNext decoder (tokenIds ++ [token]) token).2, tokenIds ++ [token],
              outputText ++ (decodeNext decoder (tokenIds ++ [token]) token).1,
              (outputText ++ (decodeNext decoder (tokenIds ++ [token]) token).1).length⟩ := by
        unfold decodeStep
        simp only [length_append, length_singleton]
        rw [if_pos spares]
      rw [step, step]
      obtain ⟨decoder', outputText', first', second', done, -, -, -⟩ := ih
        (decodeNext decoder (tokenIds ++ [token]) token).2 (tokenIds ++ [token])
        (outputText ++ (decodeNext decoder (tokenIds ++ [token]) token).1)
        (outputText ++ (decodeNext decoder (tokenIds ++ [token]) token).1).length
        (outputText ++ (decodeNext decoder (tokenIds ++ [token]) token).1).length
      rw [append_assoc] at done
      exact ⟨decoder', outputText', first', first', done, done, fun _ _ => rfl,
        fun not => absurd spares not⟩
    · have step (offset : Nat) : decodeStep decodeNext minTokens promptLen
          ⟨decoder, tokenIds, outputText, offset⟩ token =
            ⟨(decodeNext decoder (tokenIds ++ [token]) token).2, tokenIds ++ [token],
              outputText ++ (decodeNext decoder (tokenIds ++ [token]) token).1, offset⟩ := by
        unfold decodeStep
        simp only [length_append, length_singleton]
        rw [if_neg spares]
      rw [step, step]
      obtain ⟨decoder', outputText', first', second', one, two, -, kept⟩ := ih
        (decodeNext decoder (tokenIds ++ [token]) token).2 (tokenIds ++ [token])
        (outputText ++ (decodeNext decoder (tokenIds ++ [token]) token).1) first second
      rw [append_assoc] at one two
      refine ⟨decoder', outputText', first', second', one, two,
        fun _ impossible => absurd impossible spares, fun _ => kept ?_⟩
      -- one token later it is no less late
      rintro ⟨positive, early⟩
      rw [length_append] at early
      exact spares ⟨positive, by omega⟩

/-- A detokenizer that decodes, with its prompt in front. -/
structure Started (detokenizer : IncrementalDetokenizer State) : Prop where
  decodes : detokenizer.decoder ≠ none
  prompted : detokenizer.promptLen ≤ detokenizer.tokenIds.length

structure Extends (before after : IncrementalDetokenizer State) (tokens : List Nat) (offset : Nat) :
    Prop where
  settings : SameSettings before after
  text : before.outputText <+: after.outputText
  tokenIds : after.tokenIds = before.tokenIds ++ tokens
  later : before.outputText.length ≤ offset
  inside : offset ≤ after.outputText.length

theorem spoken_extends (decodeNext : State → List Nat → Nat → List Char × State)
    {self : IncrementalDetokenizer State} (tokens : List Nat)
    (started : Started self) :
    Extends self (spoken decodeNext self tokens).1 tokens (spoken decodeNext self tokens).2 := by
  cases held : self.decoder with
  | none => exact absurd held started.decodes
  | some decoder =>
    rw [spoken, held]
    obtain ⟨settings, text, tokenIds, later, inside⟩ := decode_grown decodeNext self held rfl
    exact ⟨settings, text, tokenIds, later, inside⟩

theorem spoken_started (decodeNext : State → List Nat → Nat → List Char × State)
    (tokens : List Nat) (started : Started self) :
    Started (spoken decodeNext self tokens).1 := by
  have grown := spoken_extends decodeNext tokens started
  constructor
  · exact fun gone => started.decodes (grown.settings.decoder.mp gone)
  · rw [grown.settings.promptLen, grown.tokenIds, length_append]
    exact Nat.le_add_right_of_le started.prompted

variable (tokens : List Nat)

theorem spoken_eq (decoder : State) (held : self.decoder = some decoder) (loop : Decoding State)
    (looped : tokens.foldl (decodeStep decodeNext self.minTokens self.promptLen)
      ⟨decoder, self.tokenIds, self.outputText, self.outputText.length⟩ = loop) :
    spoken decodeNext self tokens =
      ({ self with
          decoder := some loop.decoder
          tokenIds := loop.tokenIds
          outputText := loop.outputText }, loop.stopCheckOffset) := by
  subst looped
  rw [spoken, held]
  simp only [IncrementalDetokenizer.decode, Bool.false_and, Bool.false_eq_true, ↓reduceIte,
    append_nil]

theorem spoken_nil (started : Started self) :
    spoken decodeNext self [] = (self, self.outputText.length) := by
  cases held : self.decoder with
  | none => exact absurd held started.decodes
  | some decoder =>
    rw [spoken_eq [] decoder held _ rfl]
    simp only [foldl_nil, ← held]

/-- Tokens that come later, in the same update or in the next. -/
theorem spoken_append {decodeNext : State → List Nat → Nat → List Char × State}
    {first second : List Nat} (started : Started self) :
    (spoken decodeNext self (first ++ second)).1 =
        (spoken decodeNext (spoken decodeNext self first).1 second).1 ∧
      (second ≠ [] → Spares (spoken decodeNext self first).1 →
        (spoken decodeNext self (first ++ second)).2 =
          (spoken decodeNext (spoken decodeNext self first).1 second).2) ∧
      (second = [] ∨ ¬ Spares (spoken decodeNext self first).1 →
        (spoken decodeNext self (first ++ second)).2 = (spoken decodeNext self first).2 ∧
        (spoken decodeNext (spoken decodeNext self first).1 second).2 =
          (spoken decodeNext self first).1.outputText.length) := by
  cases held : self.decoder with
  | none => exact absurd held started.decodes
  | some decoder =>
    cases loop : first.foldl (decodeStep decodeNext self.minTokens self.promptLen)
        ⟨decoder, self.tokenIds, self.outputText, self.outputText.length⟩ with
    | mk decoder₁ tokenIds₁ outputText₁ offset₁ =>
      obtain ⟨decoder₂, outputText₂, offset₂, fresh, one, two, spares, kept⟩ :=
        foldl_offset decodeNext self.minTokens self.promptLen second decoder₁
          tokenIds₁ outputText₁ offset₁ outputText₁.length
      have firstSaid := spoken_eq first decoder held _ loop
      have bothSaid := spoken_eq (first ++ second) decoder held
        ⟨decoder₂, tokenIds₁ ++ second, outputText₂, offset₂⟩
        (by rw [foldl_append, loop]; exact one)
      have secondSaid := @spoken_eq _ decodeNext (spoken decodeNext self first).1 second decoder₁
        (by rw [firstSaid]) ⟨decoder₂, tokenIds₁ ++ second, outputText₂, fresh⟩
        (by rw [firstSaid]; exact two)
      rw [secondSaid, bothSaid, firstSaid]
      refine ⟨rfl, fun nonempty saved => spares nonempty saved, fun over_ => ?_⟩
      rcases over_ with rfl | late
      · exact ⟨(congrArg Decoding.stopCheckOffset one).symm,
          (congrArg Decoding.stopCheckOffset two).symm⟩
      · exact kept late

/-- While the tokens are some of the first `min_tokens`, the place moves with the text. -/
theorem spoken_early (nonempty : tokens ≠ []) (started : Started self)
    (positive : self.minTokens ≠ 0)
    (early : self.tokenIds.length + tokens.length - self.promptLen ≤ self.minTokens) :
    (spoken decodeNext self tokens).2 = (spoken decodeNext self tokens).1.outputText.length := by
  cases held : self.decoder with
  | none => exact absurd held started.decodes
  | some decoder =>
    obtain ⟨before, last, rfl⟩ := eq_nil_or_concat tokens |>.resolve_left nonempty
    rw [length_concat] at early
    rw [spoken_eq _ decoder held _ rfl, concat_eq_append, foldl_append, foldl_cons, foldl_nil]
    obtain ⟨decoder', outputText, offset, -, done, -, -, -⟩ :=
      foldl_offset decodeNext self.minTokens self.promptLen before decoder
        self.tokenIds self.outputText self.outputText.length 0
    rw [done]
    unfold decodeStep
    simp only [length_append, length_singleton]
    rw [if_pos ⟨positive, by omega⟩]

theorem spoken_spares {decodeNext : State → List Nat → Nat → List Char × State}
    {tokens : List Nat} (started : Started self)
    (spares : Spares (spoken decodeNext self tokens).1) :
    (spoken decodeNext self tokens).2 = (spoken decodeNext self tokens).1.outputText.length := by
  have grown := spoken_extends decodeNext tokens started
  obtain ⟨positive, early⟩ := spares
  rw [grown.settings.minTokens] at positive early
  rw [grown.settings.promptLen, grown.tokenIds, length_append] at early
  by_cases empty : tokens = []
  · subst empty
    rw [spoken_nil started]
  · exact spoken_early tokens empty started positive (by omega)

/-! One update. -/

/-- The search starts where a stop string can end just after `offset`. -/
theorem findFrom_eq {text pattern : List Char} (nonempty : pattern ≠ []) {offset : Nat}
    (inside : offset < text.length) :
    findFrom text pattern (1 - ((text.length - offset : Nat) : Int) - (pattern.length : Int)) =
      (find pattern (text.drop (offset + 1 - pattern.length))).map
        (offset + 1 - pattern.length + ·) := by
  have positive := length_pos_of_ne_nil nonempty
  have start : (if (1 - ((text.length - offset : Nat) : Int) - (pattern.length : Int)) < 0 then
      ((text.length : Int) + (1 - ((text.length - offset : Nat) : Int) -
        (pattern.length : Int))).toNat
      else (1 - ((text.length - offset : Nat) : Int) - (pattern.length : Int)).toNat) =
        offset + 1 - pattern.length := by
    rw [if_pos (by omega)]
    omega
  rw [findFrom, start]
  exact if_neg (by omega)

theorem checkStopStrings_eq (text : List Char) (offset : Nat) (inside : offset < text.length)
    (stop : List (List Char)) (nonempty : [] ∉ stop) (includeInOutput : Bool) :
    checkStopStrings text (text.length - offset) stop includeInOutput =
      (firstListed text offset stop).map fun chosen => (chosen.1,
        if includeInOutput = true ∧ text.length ≤ chosen.2 then none
        else some (if includeInOutput then chosen.2 else chosen.2 - chosen.1.length)) := by
  rw [checkStopStrings, if_neg (by omega)]
  induction stop with
  | nil => rfl
  | cons stopString rest ih =>
    have notEmpty : stopString ≠ [] := fun empty => nonempty (empty ▸ mem_cons_self)
    have search := findFrom_eq notEmpty inside
    rw [firstListed, findSome?_cons, findSome?_cons, search, firstEnd]
    cases find stopString (text.drop (offset + 1 - stopString.length)) with
    | none => exact ih fun member => nonempty (mem_cons_of_mem _ member)
    | some index =>
      cases includeInOutput with
      | true =>
        by_cases ended :
            text.length ≤ offset + 1 - stopString.length + index + stopString.length
        · simp [ended]
        · simp [ended]
      | false => simp

theorem evaluateStop_eq (offset : Nat) (inside : offset ≤ self.outputText.length)
    (late : ¬ self.minTokens < self.numOutputTokens → offset = self.outputText.length) :
    self.evaluateStop offset = match firstListed self.outputText offset self.stop.stop with
      | none => (self, none)
      | some (stopString, place) =>
        ({ self with outputText := self.outputText.take (cutAt self stopString place) },
          some stopString) := by
  -- in an empty window nothing ends
  have closed (empty : offset = self.outputText.length) :
      firstListed self.outputText offset self.stop.stop = none := by
    rw [firstListed_eq_none_iff self.stop.nonempty]
    intro stopString listed place later ends
    have := ends.le fun none_ => self.stop.nonempty (none_ ▸ listed)
    omega
  rw [IncrementalDetokenizer.evaluateStop]
  by_cases checks : self.stop.stop ≠ [] ∧ self.minTokens < self.numOutputTokens
  · rw [if_pos checks]
    by_cases empty : offset = self.outputText.length
    · rw [checkStopStrings, if_pos (by omega), closed empty]
    · rw [checkStopStrings_eq _ _ (by omega) _ self.stop.nonempty]
      cases listed : firstListed self.outputText offset self.stop.stop with
      | none => rfl
      | some chosen =>
        obtain ⟨stopString, place⟩ := chosen
        simp only [map_some]
        by_cases whole : self.includeStopStrInOutput = true ∧ self.outputText.length ≤ place
        · rw [if_pos whole]
          have uncut : self.outputText.take (cutAt self stopString place) = self.outputText := by
            rw [cutAt, if_pos whole.1]
            exact take_of_length_le whole.2
          rw [uncut]
        · rw [if_neg whole]
          rfl
  · rw [if_neg checks]
    have nothing : firstListed self.outputText offset self.stop.stop = none := by
      by_cases none_ : self.stop.stop = []
      · rw [none_]
        rfl
      · exact closed (late fun over_ => checks ⟨none_, over_⟩)
    rw [nothing]

/-- What an update makes of the tokens. -/
def settle (self said : IncrementalDetokenizer State) (offset : Nat) :
    IncrementalDetokenizer State × Option (List Char) :=
  match firstListed said.outputText offset self.stop.stop with
  | none => (said, none)
  | some (stopString, place) =>
    ({ said with outputText := said.outputText.take (cutAt self stopString place) },
      some stopString)

theorem update_settle (started : Started self) :
    self.update decodeNext tokens false =
      settle self (spoken decodeNext self tokens).1 (spoken decodeNext self tokens).2 := by
  have grown := spoken_extends decodeNext tokens started
  cases held : self.decoder with
  | none => exact absurd held started.decodes
  | some decoder =>
    rw [IncrementalDetokenizer.update, held]
    simp only
    by_cases empty : tokens = []
    · subst empty
      have closed : firstListed self.outputText self.outputText.length self.stop.stop = none := by
        rw [firstListed_eq_none_iff self.stop.nonempty]
        intro stopString listed place later ends
        have := ends.le fun none_ => self.stop.nonempty (none_ ▸ listed)
        omega
      rw [if_pos rfl, spoken_nil started, settle, closed]
    · have decoded : self.decode decodeNext decoder tokens false = spoken decodeNext self tokens := by
        rw [spoken, held]
      have cut (stopString : List Char) (place : Nat) :
          cutAt (spoken decodeNext self tokens).1 stopString place = cutAt self stopString place := by
        rw [cutAt, grown.settings.includeStop, cutAt]
      rw [if_neg empty, decoded, evaluateStop_eq _ grown.inside, settle]
      · simp only [cut, grown.settings.stop]
      · intro early
        rw [grown.settings.minTokens, IncrementalDetokenizer.numOutputTokens,
          grown.settings.promptLen, grown.tokenIds, length_append] at early
        have positive := length_pos_of_ne_nil empty
        have prompted := started.prompted
        exact spoken_early tokens empty started (by omega) (by omega)

theorem feed_cons {tokens : List Nat} {rest : List (List Nat)} (started : Started self) :
    feed decodeNext self (tokens :: rest) false =
      match firstListed (spoken decodeNext self tokens).1.outputText
          (spoken decodeNext self tokens).2 self.stop.stop with
      | none => feed decodeNext (spoken decodeNext self tokens).1 rest false
      | some (stopString, place) =>
        ({ (spoken decodeNext self tokens).1 with
            outputText := (spoken decodeNext self tokens).1.outputText.take
              (cutAt self stopString place) },
          some stopString) := by
  rw [feed, Bool.and_false, update_settle tokens started, settle]
  cases firstListed (spoken decodeNext self tokens).1.outputText
      (spoken decodeNext self tokens).2 self.stop.stop with
  | none => rfl
  | some chosen => rfl

theorem feed_append (first second : List (List Nat)) (self : IncrementalDetokenizer State) :
    feed decodeNext self (first ++ second) false = match (feed decodeNext self first false).2 with
      | none => feed decodeNext (feed decodeNext self first false).1 second false
      | some _ => feed decodeNext self first false := by
  induction first generalizing self with
  | nil => rfl
  | cons tokens rest ih =>
    rw [cons_append, feed, feed]
    simp only [Bool.and_false]
    cases updated : self.update decodeNext tokens false with
    | mk after result =>
      cases result with
      | none => exact ih after
      | some stopString => rfl

/-! One token at a time. -/

/-- The place that the text of a group has reached after some of its tokens. -/
def reached (decodeNext : State → List Nat → Nat → List Char × State)
    (self : IncrementalDetokenizer State) (tokens : List Nat) (i : Nat) : Nat :=
  (spoken decodeNext self (tokens.take i)).1.outputText.length

/-- The group says the stop string at the end of one of its tokens: nothing has ended before that
token, and it is the first listed that ends in it. -/
structure StopsAt (decodeNext : State → List Nat → Nat → List Char × State)
    (detokenizer : IncrementalDetokenizer State) (tokens : List Nat) (stopString : List Char)
    (place i : Nat) : Prop where
  later : (spoken decodeNext detokenizer tokens).2 ≤ reached decodeNext detokenizer tokens i
  chosen : firstListed ((spoken decodeNext detokenizer tokens).1.outputText.take
    (reached decodeNext detokenizer tokens (i + 1))) (reached decodeNext detokenizer tokens i)
      detokenizer.stop.stop = some (stopString, place)
  clear : ∀ other ∈ detokenizer.stop.stop, ∀ p, (spoken decodeNext detokenizer tokens).2 < p →
    p ≤ reached decodeNext detokenizer tokens i →
    ¬ EndsAt (spoken decodeNext detokenizer tokens).1.outputText other p

theorem spoken_cons {decodeNext : State → List Nat → Nat → List Char × State}
    {token : Nat} (rest : List Nat) (started : Started self) :
    (spoken decodeNext self (token :: rest)).1 =
        (spoken decodeNext (spoken decodeNext self [token]).1 rest).1 ∧
      (Spares self → (spoken decodeNext self (token :: rest)).2 =
        (spoken decodeNext (spoken decodeNext self [token]).1 rest).2 ∧
        (spoken decodeNext self [token]).2 = (spoken decodeNext self [token]).1.outputText.length) ∧
      (¬ Spares self → (spoken decodeNext self (token :: rest)).2 = self.outputText.length ∧
        (spoken decodeNext self [token]).2 = self.outputText.length ∧
        (spoken decodeNext (spoken decodeNext self [token]).1 rest).2 =
          (spoken decodeNext self [token]).1.outputText.length) := by
  have grown := spoken_extends decodeNext [token] started
  obtain ⟨same, spares, late⟩ := spoken_append started
  rw [singleton_append] at same spares late
  refine ⟨same, fun saved => ?_, fun done => ?_⟩
  · have whole : (spoken decodeNext self [token]).2 =
        (spoken decodeNext self [token]).1.outputText.length :=
      spoken_early [token] (cons_ne_nil _ _) started saved.1 saved.2
    refine ⟨?_, whole⟩
    by_cases again : rest ≠ [] ∧ Spares (spoken decodeNext self [token]).1
    · exact spares again.1 again.2
    · have over_ : rest = [] ∨ ¬ Spares (spoken decodeNext self [token]).1 := by
        by_cases empty : rest = []
        · exact Or.inl empty
        · exact Or.inr fun more => again ⟨empty, more⟩
      rw [(late over_).1, (late over_).2, whole]
  · have after : ¬ Spares (spoken decodeNext self [token]).1 := by
      rintro ⟨positive, early⟩
      rw [grown.settings.minTokens] at positive early
      rw [grown.settings.promptLen, grown.tokenIds, length_append] at early
      exact done ⟨positive, by omega⟩
    have start : (spoken decodeNext self [token]).2 = self.outputText.length := by
      cases held : self.decoder with
      | none => exact absurd held started.decodes
      | some decoder =>
        rw [spoken_eq [token] decoder held _ rfl]
        unfold decodeStep
        simp only [length_append, length_singleton]
        exact if_neg done
    exact ⟨(late (Or.inr after)).1.trans start, start, (late (Or.inr after)).2⟩

theorem quiet_iff {stop : StopStrings} {text : List Char} {offset : Nat} :
    firstListed text offset stop.stop = none ↔
      ∀ stopString ∈ stop.stop, ∀ place, offset < place → ¬ EndsAt text stopString place :=
  firstListed_eq_none_iff stop.nonempty

theorem StopStrings.ne_nil (stop : StopStrings) {stopString : List Char}
    (listed : stopString ∈ stop.stop) : stopString ≠ [] :=
  fun empty => stop.nonempty (empty ▸ listed)

theorem cutAt_le (self : IncrementalDetokenizer State) (stopString : List Char) (place : Nat) :
    cutAt self stopString place ≤ place := by
  rw [cutAt]
  split
  · exact Nat.le_refl _
  · exact Nat.sub_le _ _

theorem reached_succ {token : Nat} {rest : List Nat} {i : Nat} (started : Started self) :
    reached decodeNext self (token :: rest) (i + 1) =
      reached decodeNext (spoken decodeNext self [token]).1 rest i := by
  rw [reached, take_succ_cons, (spoken_cons (rest.take i) started).1, reached]

theorem single_updates {decodeNext : State → List Nat → Nat → List Char × State}
    {tokens : List Nat} (started : Started self) :
    (firstListed (spoken decodeNext self tokens).1.outputText (spoken decodeNext self tokens).2
        self.stop.stop = none →
      feed decodeNext self (tokens.map fun token => [token]) false =
        ((spoken decodeNext self tokens).1, none)) ∧
    (firstListed (spoken decodeNext self tokens).1.outputText (spoken decodeNext self tokens).2
        self.stop.stop ≠ none →
      ∃ result stopString place i,
        feed decodeNext self (tokens.map fun token => [token]) false = (result, some stopString) ∧
        result.outputText =
          (spoken decodeNext self tokens).1.outputText.take (cutAt self stopString place) ∧
        StopsAt decodeNext self tokens stopString place i) := by
  induction tokens generalizing self with
  | nil =>
    rw [spoken_nil started]
    refine ⟨fun _ => rfl, fun ends => absurd ?_ ends⟩
    rw [quiet_iff]
    intro stopString listed place later found
    have inside : place ≤ self.outputText.length := found.le (StopStrings.ne_nil self.stop listed)
    exact absurd later (Nat.not_lt.mpr inside)
  | cons token rest ih =>
    have grown := spoken_extends decodeNext [token] started
    have startedOne := spoken_started decodeNext [token] started
    have further := spoken_extends decodeNext rest startedOne
    obtain ⟨clearRest, stopRest⟩ := ih startedOne
    obtain ⟨same, early, late⟩ := spoken_cons rest started
    rw [grown.settings.stop] at clearRest stopRest
    have cut (stopString : List Char) (place : Nat) :
        cutAt (spoken decodeNext self [token]).1 stopString place = cutAt self stopString place := by
      rw [cutAt, grown.settings.includeStop, cutAt]
    have inText (stopString : List Char) (listed : stopString ∈ self.stop.stop) (place : Nat) :
        EndsAt (spoken decodeNext self [token]).1.outputText stopString place ↔
          EndsAt (spoken decodeNext self (token :: rest)).1.outputText stopString place ∧
            place ≤ (spoken decodeNext self [token]).1.outputText.length := by
      rw [same]
      exact endsAt_longer further.text (StopStrings.ne_nil self.stop listed)
    -- a stop in the rest of the tokens, when nothing ends in the first
    have shift (stopString : List Char) (place i : Nat)
        (bound : (spoken decodeNext self (token :: rest)).2 ≤
          (spoken decodeNext (spoken decodeNext self [token]).1 rest).2)
        (quiet : ∀ other ∈ self.stop.stop, ∀ p, (spoken decodeNext self (token :: rest)).2 < p →
          p ≤ (spoken decodeNext (spoken decodeNext self [token]).1 rest).2 →
          ¬ EndsAt (spoken decodeNext self (token :: rest)).1.outputText other p)
        (stops : StopsAt decodeNext (spoken decodeNext self [token]).1 rest stopString place i) :
        StopsAt decodeNext self (token :: rest) stopString place (i + 1) := by
      constructor
      · rw [reached_succ started]
        exact bound.trans stops.later
      · rw [reached_succ started, reached_succ started, same, ← grown.settings.stop]
        exact stops.chosen
      · intro other listed p after until_ ends
        rw [reached_succ started] at until_
        by_cases beyond : (spoken decodeNext (spoken decodeNext self [token]).1 rest).2 < p
        · rw [same] at ends
          have again : other ∈ (spoken decodeNext self [token]).1.stop.stop := by
            rw [grown.settings.stop]
            exact listed
          exact stops.clear other again p beyond until_ ends
        · exact quiet other listed p after (by omega) ends
    rw [map_cons, feed_cons started]
    by_cases spares : Spares self
    · -- below `min_tokens` nothing is looked for
      obtain ⟨sameOffset, whole⟩ := early spares
      have quiet : firstListed (spoken decodeNext self [token]).1.outputText
          (spoken decodeNext self [token]).2 self.stop.stop = none := by
        rw [quiet_iff]
        intro stopString listed place later found
        have := found.le (StopStrings.ne_nil self.stop listed)
        omega
      rw [quiet, same, sameOffset]
      refine ⟨clearRest, fun ends => ?_⟩
      obtain ⟨result, stopString, place, i, fed, text, stops⟩ := stopRest ends
      rw [cut] at text
      exact ⟨result, stopString, place, i + 1, fed, text, shift stopString place i
        (Nat.le_of_eq sameOffset) (fun _ _ p after until_ => absurd until_ (by omega)) stops⟩
    · obtain ⟨first, firstOne, second⟩ := late spares
      cases chosen : firstListed (spoken decodeNext self [token]).1.outputText
          (spoken decodeNext self [token]).2 self.stop.stop with
      | none =>
        have quiet := quiet_iff.mp chosen
        rw [firstOne] at quiet
        -- what ends in all the text ends after the first token
        have narrower : firstListed (spoken decodeNext self (token :: rest)).1.outputText
            (spoken decodeNext self (token :: rest)).2 self.stop.stop = none ↔
            firstListed (spoken decodeNext (spoken decodeNext self [token]).1 rest).1.outputText
              (spoken decodeNext (spoken decodeNext self [token]).1 rest).2
              self.stop.stop = none := by
          rw [quiet_iff, quiet_iff, ← same, first, second]
          constructor
          · exact fun clear stopString listed place later =>
              clear stopString listed place (Nat.lt_of_le_of_lt (grown.text.length_le) later)
          · intro clear stopString listed place later found
            by_cases beyond : (spoken decodeNext self [token]).1.outputText.length < place
            · exact clear stopString listed place beyond found
            · exact quiet stopString listed place later
                ((inText stopString listed place).mpr ⟨found, by omega⟩)
        refine ⟨fun clear => ?_, fun ends => ?_⟩
        · rw [same]
          exact clearRest (narrower.mp clear)
        · obtain ⟨result, stopString, place, i, fed, text, stops⟩ :=
            stopRest fun none_ => ends (narrower.mpr none_)
          rw [cut, ← same] at text
          refine ⟨result, stopString, place, i + 1, fed, text, shift stopString place i ?_ ?_ stops⟩
          · rw [first, second]
            exact grown.text.length_le
          · intro other listed p after until_ found
            rw [first] at after
            rw [second] at until_
            exact quiet other listed p after ((inText other listed p).mpr ⟨found, until_⟩)
      | some found =>
        obtain ⟨stopString, place⟩ := found
        obtain ⟨listed, ends⟩ := firstListed_spec self.stop.nonempty chosen
        obtain ⟨endsAll, inside⟩ := (inText stopString listed place).mp ends.ends
        have later := ends.later
        rw [firstOne] at later
        have reachedZero : reached decodeNext self (token :: rest) 0 = self.outputText.length := by
          rw [reached, take_zero, spoken_nil started]
        have reachedOne : reached decodeNext self (token :: rest) (0 + 1) =
            (spoken decodeNext self [token]).1.outputText.length := rfl
        have prefix_ : (spoken decodeNext self (token :: rest)).1.outputText.take
            (spoken decodeNext self [token]).1.outputText.length =
              (spoken decodeNext self [token]).1.outputText := by
          rw [same]
          exact (prefix_iff_eq_take.mp further.text).symm
        refine ⟨fun clear => ?_, fun _ => ?_⟩
        · rw [first] at clear
          exact absurd endsAll (quiet_iff.mp clear stopString listed place later)
        · refine ⟨_, stopString, place, 0, rfl, ?_, ?_, ?_, ?_⟩
          · have short := cutAt_le self stopString place
            rw [← prefix_, take_take, Nat.min_eq_left (short.trans inside)]
          · rw [first, reachedZero]
          · rw [reachedOne, reachedZero, prefix_, ← firstOne]
            exact chosen
          · omega

/-! One update against its single tokens. -/

theorem reached_mono (decodeNext : State → List Nat → Nat → List Char × State)
    (tokens : List Nat) (started : Started self) {i j : Nat} (order : i ≤ j) :
    reached decodeNext self tokens i ≤ reached decodeNext self tokens j := by
  have split : tokens.take j = tokens.take i ++ (tokens.take j).drop i := by
    conv_lhs => rw [← take_append_drop i (tokens.take j), take_take, Nat.min_eq_left order]
  rw [reached, reached, split, (spoken_append started).1]
  exact (spoken_extends decodeNext _ (spoken_started decodeNext _ started)).text.length_le

/-- The same stop string is found if and only if the group's choice ends in the token in which the
first one ends. -/
theorem StopsAt.same_iff {tokens : List Nat} {stopString chosen : List Char} {place end_ i : Nat}
    (stops : StopsAt decodeNext self tokens stopString place i)
    (found : firstListed (spoken decodeNext self tokens).1.outputText
      (spoken decodeNext self tokens).2 self.stop.stop = some (chosen, end_)) :
    (end_ ≤ reached decodeNext self tokens (i + 1) → (stopString, place) = (chosen, end_)) ∧
      (stopString = chosen → end_ ≤ reached decodeNext self tokens (i + 1)) := by
  constructor
  · intro inside
    have narrow := firstListed_narrow _ self.stop.nonempty found inside stops.later stops.clear
    exact some.inj (stops.chosen.symm.trans narrow)
  · rintro rfl
    obtain ⟨listed, first⟩ := firstListed_spec self.stop.nonempty stops.chosen
    obtain ⟨-, groupFirst⟩ := firstListed_spec self.stop.nonempty found
    obtain ⟨ends, inside⟩ := (endsAt_take (StopStrings.ne_nil self.stop listed)).mp first.ends
    exact (groupFirst.first place (Nat.lt_of_le_of_lt stops.later first.later) ends).trans inside

theorem orderly_iff {tokens : List Nat} {stopString chosen : List Char} {place end_ i : Nat}
    (started : Started self) (stops : StopsAt decodeNext self tokens stopString place i)
    (found : firstListed (spoken decodeNext self tokens).1.outputText
      (spoken decodeNext self tokens).2 self.stop.stop = some (chosen, end_)) :
    (chosen = stopString ∧
      (spoken decodeNext self tokens).1.outputText.take (cutAt self chosen end_) =
        (spoken decodeNext self tokens).1.outputText.take (cutAt self stopString place) ∧
      ∀ other ∈ self.stop.stop, (self.includeStopStrInOutput = true → some chosen ≠ some other) →
        ∀ p, (spoken decodeNext self tokens).2 < p →
          ¬ EndsAt ((spoken decodeNext self tokens).1.outputText.take (cutAt self chosen end_))
            other p) ↔
      Orderly decodeNext self tokens := by
  obtain ⟨sameOf, insideOf⟩ := stops.same_iff found
  obtain ⟨listed, first⟩ := firstListed_spec self.stop.nonempty stops.chosen
  obtain ⟨chosenListed, chosenFirst⟩ := firstListed_spec self.stop.nonempty found
  obtain ⟨ends, inside⟩ := (endsAt_take (StopStrings.ne_nil self.stop listed)).mp first.ends
  have later : (spoken decodeNext self tokens).2 < place :=
    Nat.lt_of_le_of_lt stops.later first.later
  constructor
  · rintro ⟨same, -, clear⟩ stopString' place' found' other otherListed p after otherEnds
    rw [found] at found'
    cases found'
    constructor
    · intro j upTo
      -- nothing ends before the token in which the choice ends
      have beyond : reached decodeNext self tokens i < p := by
        by_contra before
        exact stops.clear other otherListed p after (by omega) otherEnds
      have order : i + 1 ≤ j := by
        by_contra smaller
        have := reached_mono decodeNext tokens started (show j ≤ i by omega)
        unfold reached at this beyond
        omega
      exact (insideOf same.symm).trans (reached_mono decodeNext tokens started order)
    · intro differs
      by_contra early
      apply clear other otherListed (fun _ equal => differs (some.inj equal).symm) p after
      exact (endsAt_take (StopStrings.ne_nil self.stop otherListed)).mpr ⟨otherEnds, by omega⟩
  · intro orderly
    have upTo := (orderly chosen end_ found stopString listed place later ends).1 (i + 1) inside
    obtain ⟨rfl, rfl⟩ := Prod.mk.inj (sameOf upTo)
    refine ⟨rfl, rfl, fun other otherListed notMatched p after otherEnds => ?_⟩
    obtain ⟨inText, before⟩ := (endsAt_take (StopStrings.ne_nil self.stop otherListed)).mp otherEnds
    by_cases same : other = stopString
    · subst same
      have positive := length_pos_of_ne_nil (StopStrings.ne_nil self.stop otherListed)
      have atLeast := chosenFirst.first p after inText
      unfold cutAt at before
      split at before
      · rename_i included
        exact notMatched included rfl
      · omega
    · have := (orderly stopString place found other otherListed p after inText).2 same
      omega

/-! Whole runs. -/

/-- A final text is part of a text that extends the one at the start. -/
theorem feed_text (decodeNext : State → List Nat → Nat → List Char × State)
    (groups : List (List Nat)) (started : Started self) :
    ∃ longer, self.outputText <+: longer ∧
      (feed decodeNext self groups false).1.outputText <+: longer := by
  induction groups generalizing self with
  | nil => exact ⟨self.outputText, prefix_rfl, prefix_rfl⟩
  | cons tokens rest ih =>
    have grown := spoken_extends decodeNext tokens started
    rw [feed_cons started]
    cases firstListed (spoken decodeNext self tokens).1.outputText
        (spoken decodeNext self tokens).2 self.stop.stop with
    | none =>
      obtain ⟨longer, start, final⟩ := ih (spoken_started decodeNext tokens started)
      exact ⟨longer, grown.text.trans start, final⟩
    | some chosen => exact ⟨_, grown.text, take_prefix _ _⟩

theorem independent_iff_settled (groups : List (List Nat)) (started : Started self) :
    ((feed decodeNext self groups false).2 =
        (feed decodeNext self (groups.flatten.map fun token => [token]) false).2 ∧
      (feed decodeNext self groups false).1.outputText =
        (feed decodeNext self (groups.flatten.map fun token => [token]) false).1.outputText ∧
      NoStop self (spoken decodeNext self groups.flatten).2 (feed decodeNext self groups false)) ↔
      Settled decodeNext self groups := by
  induction groups generalizing self with
  | nil =>
    refine ⟨fun _ => trivial, fun _ => ⟨rfl, rfl, ?_⟩⟩
    intro stopString listed _ place later ends
    rw [flatten_nil, spoken_nil started] at later
    have inside : place ≤ self.outputText.length := ends.le (StopStrings.ne_nil self.stop listed)
    exact absurd later (Nat.not_lt.mpr inside)
  | cons tokens rest ih =>
    have grown := spoken_extends decodeNext tokens started
    have startedNext := spoken_started decodeNext tokens started
    obtain ⟨-, spares, late⟩ := spoken_append started
    obtain ⟨quietSingles, stopSingles⟩ := single_updates started
    rw [flatten_cons, map_append, feed_append, feed_cons started, Settled]
    cases found : firstListed (spoken decodeNext self tokens).1.outputText
        (spoken decodeNext self tokens).2 self.stop.stop with
    | none =>
      have quiet := quiet_iff.mp found
      rw [quietSingles found]
      simp only
      have vacuous : Orderly decodeNext self tokens := by
        intro stopString place impossible
        rw [found] at impossible
        contradiction
      rw [and_iff_right vacuous, forall_true_left, ← ih startedNext]
      -- the place from which stop strings count
      have sameText : NoStop self (spoken decodeNext self (tokens ++ rest.flatten)).2
          (feed decodeNext (spoken decodeNext self tokens).1 rest false) ↔
          NoStop (spoken decodeNext self tokens).1
            (spoken decodeNext (spoken decodeNext self tokens).1 rest.flatten).2
            (feed decodeNext (spoken decodeNext self tokens).1 rest false) := by
        unfold NoStop
        rw [grown.settings.stop, grown.settings.includeStop]
        by_cases more : rest.flatten ≠ [] ∧ Spares (spoken decodeNext self tokens).1
        · rw [spares more.1 more.2]
        · have over_ : rest.flatten = [] ∨ ¬ Spares (spoken decodeNext self tokens).1 := by
            by_cases empty : rest.flatten = []
            · exact Or.inl empty
            · exact Or.inr fun again => more ⟨empty, again⟩
          obtain ⟨offset, base⟩ := late over_
          rw [offset, base]
          obtain ⟨longer, start, final⟩ := feed_text decodeNext rest startedNext
          constructor
          · exact fun clear other listed notMatched place later =>
              clear other listed notMatched place (Nat.lt_of_le_of_lt grown.inside later)
          · intro clear other listed notMatched place later ends
            by_cases beyond : (spoken decodeNext self tokens).1.outputText.length < place
            · exact clear other listed notMatched place beyond ends
            · have notEmpty := StopStrings.ne_nil self.stop listed
              have inLonger := ((endsAt_longer final notEmpty).mp ends).1
              exact quiet other listed place later
                ((endsAt_longer start notEmpty).mpr ⟨inLonger, by omega⟩)
      rw [sameText]
    | some chosen =>
      obtain ⟨stopString, place⟩ := chosen
      obtain ⟨result, single, singlePlace, i, fed, text, stops⟩ := stopSingles (by
        rw [found]
        exact some_ne_none _)
      obtain ⟨listed, first⟩ := firstListed_spec self.stop.nonempty found
      -- with a stop string in this update no later token is one of the `min_tokens`
      have over_ : ¬ Spares (spoken decodeNext self tokens).1 := by
        intro again
        have whole := spoken_spares started again
        have inside := first.ends.le (StopStrings.ne_nil self.stop listed)
        have later := first.later
        omega
      rw [(late (Or.inr over_)).1, fed]
      simp only [reduceCtorEq, false_implies, and_true, some.injEq]
      rw [← orderly_iff started stops found, text]
      rfl

/-! The last update may end with a stop token that is not decoded. -/

theorem update_included (included : self.includeStopStrInOutput = true) (tokens : List Nat)
    (stopTerminated : Bool) :
    self.update decodeNext tokens stopTerminated = self.update decodeNext tokens false := by
  unfold IncrementalDetokenizer.update IncrementalDetokenizer.decode
  rw [included]
  simp only [Bool.not_true, Bool.and_false]

theorem feed_included (included : self.includeStopStrInOutput = true) (groups : List (List Nat))
    (stopTerminated : Bool) (started : Started self) :
    feed decodeNext self groups stopTerminated = feed decodeNext self groups false := by
  induction groups generalizing self with
  | nil => rfl
  | cons tokens rest ih =>
    have grown := spoken_extends decodeNext tokens started
    have again := @ih (spoken decodeNext self tokens).1
      (grown.settings.includeStop.trans included) (spoken_started decodeNext tokens started)
    rw [feed_cons started, feed, update_included included, update_settle tokens started, settle]
    cases firstListed (spoken decodeNext self tokens).1.outputText
        (spoken decodeNext self tokens).2 self.stop.stop with
    | none => exact again
    | some chosen => rfl

/-- The stop token adds no text and no check of its own. -/
theorem update_terminated (decodeNext : State → List Nat → Nat → List Char × State)
    (excluded : self.includeStopStrInOutput = false) (tokens : List Nat)
    (token : Nat) (started : Started self) :
    (self.update decodeNext (tokens ++ [token]) true).2 = (self.update decodeNext tokens false).2 ∧
      (self.update decodeNext (tokens ++ [token]) true).1.outputText =
        (self.update decodeNext tokens false).1.outputText := by
  have grown := spoken_extends decodeNext tokens started
  rw [update_settle tokens started, settle]
  cases held : self.decoder with
  | none => exact absurd held started.decodes
  | some decoder =>
    have said : spoken decodeNext self tokens = self.decode decodeNext decoder tokens false := by
      rw [spoken, held]
    have decoded : self.decode decodeNext decoder (tokens ++ [token]) true =
        ({ (spoken decodeNext self tokens).1 with
            tokenIds := (spoken decodeNext self tokens).1.tokenIds ++ [token] },
          (spoken decodeNext self tokens).2) := by
      rw [said]
      simp only [IncrementalDetokenizer.decode, excluded, Bool.not_false, Bool.and_true, ↓reduceIte,
        dropLast_concat, getLast?_append, getLast?_singleton, some_or,
        toList_some, Bool.false_eq_true, append_nil]
    have late : ¬ (spoken decodeNext self tokens).1.minTokens <
        ((spoken decodeNext self tokens).1.tokenIds ++ [token]).length -
          (spoken decodeNext self tokens).1.promptLen →
        (spoken decodeNext self tokens).2 =
          (spoken decodeNext self tokens).1.outputText.length := by
      intro early
      rw [grown.settings.minTokens, grown.settings.promptLen, grown.tokenIds, length_append,
        length_append, length_singleton] at early
      have prompted := started.prompted
      by_cases empty : tokens = []
      · subst empty
        rw [spoken_nil started]
      · exact spoken_early tokens empty started (by omega) (by omega)
    rw [IncrementalDetokenizer.update, held]
    simp only
    rw [if_neg (append_ne_nil_of_right_ne_nil _ (cons_ne_nil _ _)), decoded,
      @evaluateStop_eq _ { (spoken decodeNext self tokens).1 with
        tokenIds := (spoken decodeNext self tokens).1.tokenIds ++ [token] } _ grown.inside late]
    simp only [grown.settings.stop]
    cases firstListed (spoken decodeNext self tokens).1.outputText
        (spoken decodeNext self tokens).2 self.stop.stop with
    | none => exact ⟨rfl, rfl⟩
    | some chosen =>
      refine ⟨rfl, ?_⟩
      simp only [cutAt, grown.settings.includeStop]

theorem feed_terminated (decodeNext : State → List Nat → Nat → List Char × State)
    (excluded : self.includeStopStrInOutput = false) (before : List (List Nat))
    (tokens : List Nat) (token : Nat) (started : Started self) :
    (feed decodeNext self (before ++ [tokens ++ [token]]) true).2 =
        (feed decodeNext self (before ++ [tokens]) false).2 ∧
      (feed decodeNext self (before ++ [tokens ++ [token]]) true).1.outputText =
        (feed decodeNext self (before ++ [tokens]) false).1.outputText := by
  induction before generalizing self with
  | nil =>
    obtain ⟨same, text⟩ := update_terminated decodeNext excluded tokens token started
    simp only [nil_append, feed, isEmpty_nil, Bool.true_and, same]
    cases (self.update decodeNext tokens false).2 with
    | none => exact ⟨rfl, text⟩
    | some stopString => exact ⟨rfl, text⟩
  | cons first rest ih =>
    have grown := spoken_extends decodeNext first started
    have notLast (last : List Nat) : (rest ++ [last]).isEmpty = false := by
      rw [isEmpty_eq_false_iff]
      exact append_ne_nil_of_right_ne_nil _ (cons_ne_nil _ _)
    have again := @ih (spoken decodeNext self first).1
      (grown.settings.includeStop.trans excluded) (spoken_started decodeNext first started)
    rw [cons_append, cons_append, feed_cons started, feed, notLast,
      Bool.false_and, update_settle first started, settle]
    cases firstListed (spoken decodeNext self first).1.outputText
        (spoken decodeNext self first).2 self.stop.stop with
    | none => exact again
    | some chosen => exact ⟨rfl, rfl⟩

theorem feed_nothing (groups : List (List Nat)) :
    feed decodeNext self (groups ++ [[]]) false = feed decodeNext self groups false := by
  have none_ (detokenizer : IncrementalDetokenizer State) :
      feed decodeNext detokenizer [[]] false = (detokenizer, none) := by
    have nothing : detokenizer.update decodeNext [] false = (detokenizer, none) := by
      unfold IncrementalDetokenizer.update
      split
      · rw [append_nil]
      · exact if_pos rfl
    rw [feed, Bool.and_false, nothing]
    rfl
  rw [feed_append]
  cases fed : feed decodeNext self groups false with
  | mk after result =>
    cases result with
    | none => exact none_ after
    | some stopString => rfl

/-- Any grouping and one token at a time end with the same stop string and the same text, which has no
other stop string, if and only if the first update in which a stop string ends is orderly. -/
theorem independent_iff (decodeNext : State → List Nat → Nat → List Char × State)
    (self : IncrementalDetokenizer State) (groups : List (List Nat)) (stopTerminated : Bool)
    (started : Started self) (nonempty : [] ∉ groups) :
    Independent decodeNext self groups stopTerminated ↔ Settled decodeNext self
      (decodedGroups groups (stopTerminated && !self.includeStopStrInOutput)) := by
  rw [← independent_iff_settled _ started, Independent]
  cases skip : stopTerminated && !self.includeStopStrInOutput with
  | false =>
    have same (updates : List (List Nat)) :
        feed decodeNext self updates stopTerminated = feed decodeNext self updates false := by
      cases stopTerminated with
      | false => rfl
      | true =>
        rw [Bool.true_and, Bool.not_eq_false'] at skip
        exact feed_included skip updates true started
    rw [same, same, decodedGroups, if_neg Bool.false_ne_true]
  | true =>
    obtain ⟨rfl, excluded⟩ := Bool.and_eq_true_iff.mp skip
    rw [Bool.not_eq_true'] at excluded
    rw [decodedGroups, if_pos rfl]
    rcases eq_nil_or_concat groups with rfl | ⟨before, last, rfl⟩
    · have empty : feed decodeNext self [[]] false = feed decodeNext self [] false :=
        @feed_nothing State decodeNext self []
      simp only [dropLast_nil, getLast?_nil, getD_none, nil_append,
        flatten_nil, flatten_cons, append_nil, map_nil, empty]
      exact Iff.rfl
    · rw [concat_eq_append] at nonempty ⊢
      obtain ⟨tokens, token, rfl⟩ := (eq_nil_or_concat last).resolve_left fun empty =>
        nonempty (empty ▸ mem_append_right _ (mem_singleton_self _))
      rw [concat_eq_append]
      obtain ⟨sameGroup, textGroup⟩ :=
        feed_terminated decodeNext excluded before tokens token started
      obtain ⟨sameSingle, textSingle⟩ := feed_terminated decodeNext excluded
        ((before.flatten ++ tokens).map fun token => [token]) [] token started
      have singles : ((before ++ [tokens ++ [token]]).flatten.map fun token => [token]) =
          ((before.flatten ++ tokens).map fun token => [token]) ++ [[] ++ [token]] := by
        simp only [flatten_append, flatten_cons, flatten_nil, append_nil,
          map_append, map_cons, map_nil, append_assoc, nil_append]
      have tokensOf : (before ++ [tokens]).flatten = before.flatten ++ tokens := by
        simp only [flatten_append, flatten_cons, flatten_nil, append_nil]
      rw [feed_nothing] at sameSingle textSingle
      rw [dropLast_concat, getLast?_concat, getD_some, dropLast_concat,
        singles, tokensOf, sameSingle, textSingle]
      unfold NoStop
      rw [sameGroup, textGroup]

/-- One stop string alone is found the same way in every grouping. -/
theorem settled_single (stopString : List Char) (only : self.stop.stop = [stopString])
    (groups : List (List Nat)) (started : Started self) : Settled decodeNext self groups := by
  induction groups generalizing self with
  | nil => trivial
  | cons tokens rest ih =>
    have grown := spoken_extends decodeNext tokens started
    refine ⟨?_, fun _ => ih (grown.settings.stop ▸ only) (spoken_started decodeNext tokens started)⟩
    intro chosen place found other listed otherPlace later ends
    obtain ⟨chosenListed, first⟩ := firstListed_spec self.stop.nonempty found
    rw [only, mem_singleton] at listed chosenListed
    subst listed
    subst chosenListed
    exact ⟨fun i inside => (first.first otherPlace later ends).trans inside,
      fun differs => absurd rfl differs⟩

/-! Tokens that are characters. -/

def charNext : Unit → List Nat → Nat → List Char × Unit := fun _ _ token => ([Char.ofNat token], ())

def charDetokenizer (stop : StopStrings) (minTokens : Nat) : IncrementalDetokenizer Unit where
  decoder := some ()
  stop := stop
  minTokens := minTokens
  includeStopStrInOutput := false
  promptLen := 1
  tokenIds := [0]
  outputText := []
  lastOutputTextOffset := 0

theorem oneString_independent :
    Independent charNext (charDetokenizer ⟨[['b', 'c']], by decide⟩ 1) [[97, 98], [99, 100]] true :=
  (independent_iff charNext _ _ true ⟨some_ne_none _, by decide⟩
    (by decide)).mpr
    (settled_single ['b', 'c'] rfl _ ⟨some_ne_none _, by decide⟩)

/-- `b` stops one token at a time; in one update `a` is found first, and `b` stays in the text. -/
theorem twoStrings_notIndependent :
    feed charNext (charDetokenizer ⟨[['a'], ['b']], by decide⟩ 0) [[98, 97]] false =
        ({ charDetokenizer ⟨[['a'], ['b']], by decide⟩ 0 with
            tokenIds := [0, 98, 97]
            outputText := ['b'] }, some ['a']) ∧
      feed charNext (charDetokenizer ⟨[['a'], ['b']], by decide⟩ 0) [[98], [97]] false =
        ({ charDetokenizer ⟨[['a'], ['b']], by decide⟩ 0 with tokenIds := [0, 98] }, some ['b']) ∧
      ¬ Independent charNext (charDetokenizer ⟨[['a'], ['b']], by decide⟩ 0) [[98, 97]] false := by
  refine ⟨rfl, rfl, ?_⟩
  rintro ⟨same, -⟩
  have differ : (some ['a'] : Option (List Char)) = some ['b'] := same
  exact absurd differ (by decide)

end VllmDcu.StopGroupings

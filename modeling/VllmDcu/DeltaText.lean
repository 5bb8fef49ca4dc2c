import VllmDcu.Detokenizer

/-! What streaming relies on in the detokenizer: text only grows, apart from the cut
at a stop string, and the cut never reaches text that was handed out before. -/
namespace VllmDcu.DeltaText
open TextSearch Detokenizer List Option

variable {State : Type}

theorem length_le_maxLength {strings : List (List Char)} {text : List Char}
    (inStrings : text ∈ strings) : text.length ≤ maxLength strings := by
  induction strings with
  | nil => cases inStrings
  | cons first rest ih =>
    cases inStrings with
    | head => exact Nat.le_max_left _ _
    | tail _ later => exact Nat.le_trans (ih later) (Nat.le_max_right _ _)

/-- What the loop over the new tokens keeps: the text grows and the check for stop
strings starts no earlier than where the old text ended. -/
structure Grown (before after : Decoding State) (newTokenIds : List Nat) : Prop where
  text : before.outputText <+: after.outputText
  tokenIds : after.tokenIds = before.tokenIds ++ newTokenIds
  offset : before.stopCheckOffset ≤ after.stopCheckOffset
  offsetInside : after.stopCheckOffset ≤ after.outputText.length

variable (decodeNext : State → List Nat → Nat → List Char × State)

theorem decodeSteps_grown (minTokens promptLen : Nat) (newTokenIds : List Nat)
    (loop : Decoding State) (inside : loop.stopCheckOffset ≤ loop.outputText.length) :
    Grown loop (newTokenIds.foldl (decodeStep decodeNext minTokens promptLen) loop) newTokenIds := by
  induction newTokenIds generalizing loop with
  | nil => exact ⟨prefix_rfl, (append_nil _).symm, Nat.le_refl _, inside⟩
  | cons newTokenId rest ih =>
    have grows : loop.outputText.length ≤
        (decodeStep decodeNext minTokens promptLen loop newTokenId).outputText.length := by
      simp [decodeStep]
    have later : loop.stopCheckOffset ≤
          (decodeStep decodeNext minTokens promptLen loop newTokenId).stopCheckOffset ∧
        (decodeStep decodeNext minTokens promptLen loop newTokenId).stopCheckOffset ≤
          (decodeStep decodeNext minTokens promptLen loop newTokenId).outputText.length := by
      simp only [decodeStep] at grows ⊢
      split <;> omega
    have tail := ih (decodeStep decodeNext minTokens promptLen loop newTokenId) later.2
    constructor
    · exact (prefix_append _ _).trans tail.text
    · rw [foldl_cons, tail.tokenIds]
      simp [decodeStep]
    · exact Nat.le_trans later.1 tail.offset
    · exact tail.offsetInside

/-- The detokenizer apart from what decoding changes. -/
structure SameSettings (before after : IncrementalDetokenizer State) : Prop where
  stop : after.stop = before.stop
  minTokens : after.minTokens = before.minTokens
  includeStop : after.includeStopStrInOutput = before.includeStopStrInOutput
  promptLen : after.promptLen = before.promptLen
  lastOffset : after.lastOutputTextOffset = before.lastOutputTextOffset
  decoder : after.decoder = none ↔ before.decoder = none

theorem SameSettings.buffer {before after : IncrementalDetokenizer State}
    (same : SameSettings before after) : after.stopBufferLength = before.stopBufferLength := by
  unfold IncrementalDetokenizer.stopBufferLength
  rw [same.stop, same.includeStop]

variable (detokenizer : IncrementalDetokenizer State)

/-- The new tokens are all kept, the last one possibly without its text. -/
theorem decode_grown {decoder : State} {newTokenIds : List Nat} {stopTerminated : Bool}
    (held : detokenizer.decoder = some decoder) {decoded : IncrementalDetokenizer State × Nat}
    (done : detokenizer.decode decodeNext decoder newTokenIds stopTerminated = decoded) :
    SameSettings detokenizer decoded.1 ∧ detokenizer.outputText <+: decoded.1.outputText ∧
      decoded.1.tokenIds = detokenizer.tokenIds ++ newTokenIds ∧
      detokenizer.outputText.length ≤ decoded.2 ∧ decoded.2 ≤ decoded.1.outputText.length := by
  subst done
  unfold IncrementalDetokenizer.decode
  generalize (stopTerminated && !detokenizer.includeStopStrInOutput) = skip
  have grown := decodeSteps_grown decodeNext detokenizer.minTokens detokenizer.promptLen
    (if skip then newTokenIds.dropLast else newTokenIds)
    ⟨decoder, detokenizer.tokenIds, detokenizer.outputText, detokenizer.outputText.length⟩
    (Nat.le_refl _)
  refine ⟨⟨rfl, rfl, rfl, rfl, rfl, ?_⟩, grown.text, ?_, grown.offset, grown.offsetInside⟩
  · simp [held]
  · simp only [grown.tokenIds, append_assoc]
    cases skip with
    | false => simp
    | true =>
      simp only [↓reduceIte]
      cases last : newTokenIds.getLast? with
      | none =>
        rw [getLast?_eq_none_iff] at last
        simp [last]
      | some token =>
        have split := dropLast_append_getLast? token (mem_def.mpr last)
        simp only [toList_some, split]

/-- A search from a place counted from the end finds nothing before it. -/
theorem findFrom_start {text pattern : List Char} (start : Int) {position : Nat}
    (negative : start < 0) (found : findFrom text pattern start = some position) :
    (text.length : Int) + start ≤ position := by
  simp only [findFrom, if_pos negative] at found
  split at found
  · cases found
  · obtain ⟨inner, -, rfl⟩ := map_eq_some_iff.mp found
    omega

/-- Where the text is cut: behind the text that was there before the new chars,
unless the stop string itself began in it. -/
theorem checkStopStrings_cut {outputText : List Char} (newCharCount : Nat) {stop : StopStrings}
    {includeInOutput : Bool} {stopString : List Char} {truncateTo : Nat}
    (inside : newCharCount ≤ outputText.length)
    (found : checkStopStrings outputText newCharCount stop.stop includeInOutput =
      some (stopString, some truncateTo)) :
    outputText.length - newCharCount <
      truncateTo + if includeInOutput then 0 else maxLength stop.stop := by
  unfold checkStopStrings at found
  split at found
  · cases found
  · obtain ⟨stopStr, inStop, here⟩ := exists_of_findSome?_eq_some found
    have nonempty : stopStr ≠ [] := by
      rintro rfl
      exact stop.nonempty inStop
    have longest := length_le_maxLength inStop
    have positive := length_pos_iff.mpr nonempty
    cases position : findFrom outputText stopStr
        (1 - (newCharCount : Int) - (stopStr.length : Int)) with
    | none =>
      rw [position] at here
      cases here
    | some stopIndex =>
      have start := findFrom_start _ (by omega) position
      rw [position] at here
      cases includeInOutput with
      | false =>
        simp only [Bool.false_eq_true, ↓reduceIte, some.injEq, Prod.mk.injEq] at here ⊢
        omega
      | true =>
        simp only [↓reduceIte] at here ⊢
        split at here
        · simp at here
        · simp only [some.injEq, Prod.mk.injEq] at here
          omega

/-- The detokenizer holds text back as far as a stop string may still reach. -/
def Held (detokenizer : IncrementalDetokenizer State) : Prop :=
  detokenizer.lastOutputTextOffset ≤ detokenizer.outputText.length - detokenizer.stopBufferLength

/-- Evaluating the stop strings leaves the text that was handed out: the text was
`before` when the held-back part was counted. -/
theorem evaluateStop_keeps {before : List Char} {stopCheckOffset : Nat}
    (grown : before <+: detokenizer.outputText)
    (held : detokenizer.lastOutputTextOffset ≤ before.length - detokenizer.stopBufferLength)
    (start : before.length ≤ stopCheckOffset)
    (inside : stopCheckOffset ≤ detokenizer.outputText.length)
    (after : IncrementalDetokenizer State × Option (List Char))
    (done : detokenizer.evaluateStop stopCheckOffset = after) :
    SameSettings detokenizer after.1 ∧ after.1.tokenIds = detokenizer.tokenIds ∧
      detokenizer.lastOutputTextOffset ≤ after.1.outputText.length ∧
      after.1.outputText.take detokenizer.lastOutputTextOffset =
        before.take detokenizer.lastOutputTextOffset ∧
      (after.2 = none → after.1 = detokenizer) := by
  have prefix_ : detokenizer.outputText.take detokenizer.lastOutputTextOffset =
      before.take detokenizer.lastOutputTextOffset := by
    obtain ⟨more, same⟩ := grown
    rw [← same]
    exact take_append_of_le_length (by omega)
  have unchanged : SameSettings detokenizer detokenizer ∧ detokenizer.tokenIds = detokenizer.tokenIds ∧
      detokenizer.lastOutputTextOffset ≤ detokenizer.outputText.length ∧
      detokenizer.outputText.take detokenizer.lastOutputTextOffset =
        before.take detokenizer.lastOutputTextOffset :=
    ⟨⟨rfl, rfl, rfl, rfl, rfl, Iff.rfl⟩, rfl, by omega, prefix_⟩
  subst done
  unfold IncrementalDetokenizer.evaluateStop
  split
  · rename_i checked
    split
    · exact ⟨unchanged.1, unchanged.2.1, unchanged.2.2.1, unchanged.2.2.2, fun _ => rfl⟩
    · exact ⟨unchanged.1, unchanged.2.1, unchanged.2.2.1, unchanged.2.2.2, fun _ => rfl⟩
    · rename_i stopString truncateTo found
      have cut := checkStopStrings_cut _ (by omega) found
      -- the held-back part is one char short of the longest stop string
      have reach : detokenizer.lastOutputTextOffset ≤ truncateTo := by
        unfold IncrementalDetokenizer.stopBufferLength at held
        cases included : detokenizer.includeStopStrInOutput with
        | true =>
          simp only [included, ↓reduceIte] at cut held
          omega
        | false =>
          simp only [included, Bool.false_eq_true, ↓reduceIte, checked.1, ne_eq, not_false_eq_true,
            and_self] at cut held
          omega
      refine ⟨⟨rfl, rfl, rfl, rfl, rfl, Iff.rfl⟩, rfl, ?_, ?_, by simp⟩
      · simp only [length_take]
        omega
      · simp only [take_take]
        rw [Nat.min_eq_left reach, prefix_]
  · exact ⟨unchanged.1, unchanged.2.1, unchanged.2.2.1, unchanged.2.2.2, fun _ => rfl⟩

/-- The new tokens are kept and the text handed out before stays; without a stop
string the text only grows. -/
structure Updated (before after : IncrementalDetokenizer State) (newTokenIds : List Nat)
    (stopString : Option (List Char)) : Prop where
  settings : SameSettings before after
  tokenIds : after.tokenIds = before.tokenIds ++ newTokenIds
  inside : after.lastOutputTextOffset ≤ after.outputText.length
  handedOut : after.outputText.take after.lastOutputTextOffset =
    before.outputText.take before.lastOutputTextOffset
  held : stopString = none → Held after
  plain : before.decoder = none → after.outputText = before.outputText

variable (newTokenIds : List Nat) (stopTerminated : Bool)

theorem update_updated (held : Held detokenizer) :
    Updated detokenizer (detokenizer.update decodeNext newTokenIds stopTerminated).1 newTokenIds
      (detokenizer.update decodeNext newTokenIds stopTerminated).2 := by
  have inside : detokenizer.lastOutputTextOffset ≤ detokenizer.outputText.length :=
    Nat.le_trans held (Nat.sub_le _ _)
  unfold IncrementalDetokenizer.update
  cases decoder : detokenizer.decoder with
  | none =>
    exact ⟨⟨rfl, rfl, rfl, rfl, rfl, by simp [decoder]⟩, rfl, inside, rfl, fun _ => held, fun _ => rfl⟩
  | some start =>
    simp only
    by_cases nothing : newTokenIds = []
    · subst nothing
      exact ⟨⟨rfl, rfl, rfl, rfl, rfl, Iff.rfl⟩, (append_nil _).symm, inside, rfl,
        fun _ => held, fun _ => rfl⟩
    · rw [if_neg nothing]
      obtain ⟨settings, grown, tokenIds, begins, within⟩ :=
        decode_grown decodeNext detokenizer decoder rfl
      generalize detokenizer.decode decodeNext start newTokenIds stopTerminated = decoded at *
      have heldBefore : decoded.1.lastOutputTextOffset ≤
          detokenizer.outputText.length - decoded.1.stopBufferLength := by
        rw [settings.lastOffset, settings.buffer]
        exact held
      obtain ⟨same, sameTokens, handed, kept, unstopped⟩ := evaluateStop_keeps decoded.1 grown heldBefore begins within _ rfl
      generalize decoded.1.evaluateStop decoded.2 = evaluated at *
      have lastOffset : evaluated.1.lastOutputTextOffset = detokenizer.lastOutputTextOffset :=
        same.lastOffset.trans settings.lastOffset
      constructor
      · exact ⟨same.stop.trans settings.stop, same.minTokens.trans settings.minTokens,
          same.includeStop.trans settings.includeStop, same.promptLen.trans settings.promptLen,
          lastOffset, same.decoder.trans settings.decoder⟩
      · exact sameTokens.trans tokenIds
      · rw [lastOffset, ← settings.lastOffset]
        exact handed
      · rw [lastOffset, ← settings.lastOffset]
        exact kept
      · intro noStop
        rw [unstopped noStop]
        unfold Held
        omega
      · rw [decoder]
        rintro ⟨⟩

/-- The stop string that is found is one of the request's. -/
theorem update_stopString (stopString : List Char)
    (found : (detokenizer.update decodeNext newTokenIds stopTerminated).2 = some stopString) :
    stopString ∈ detokenizer.stop.stop := by
  have checked : ∀ (outputText : List Char) (newCharCount : Nat) (stop : List (List Char))
      (includeInOutput : Bool) (stopString : List Char) (truncateTo : Option Nat),
      checkStopStrings outputText newCharCount stop includeInOutput = some (stopString, truncateTo) →
        stopString ∈ stop := by
    intro outputText newCharCount stop includeInOutput stopString truncateTo matched
    unfold checkStopStrings at matched
    split at matched
    · cases matched
    · obtain ⟨stopStr, inStop, here⟩ := exists_of_findSome?_eq_some matched
      split at here
      · cases here
      · split at here
        · split at here <;> cases here <;> exact inStop
        · cases here
          exact inStop
  unfold IncrementalDetokenizer.update at found
  split at found
  · cases found
  · split at found
    · cases found
    · simp only [IncrementalDetokenizer.evaluateStop] at found
      split at found
      · split at found
        · cases found
        · rename_i matched
          cases found
          exact checked _ _ _ _ _ _ matched
        · rename_i matched
          cases found
          exact checked _ _ _ _ _ _ matched
      · cases found

/-- The detokenizer of a request that has handed out nothing. -/
def rewind (detokenizer : IncrementalDetokenizer State) : IncrementalDetokenizer State :=
  { detokenizer with lastOutputTextOffset := 0 }

theorem evaluateStop_rewind (stopCheckOffset : Nat) :
    (rewind detokenizer).evaluateStop stopCheckOffset =
      (rewind (detokenizer.evaluateStop stopCheckOffset).1,
        (detokenizer.evaluateStop stopCheckOffset).2) := by
  unfold IncrementalDetokenizer.evaluateStop
  by_cases checked : detokenizer.stop.stop ≠ [] ∧ detokenizer.minTokens < detokenizer.numOutputTokens
  · rw [if_pos checked, if_pos (by exact checked)]
    simp only [rewind]
    split <;> rfl
  · rw [if_neg checked, if_neg (by exact checked)]

theorem update_rewind :
    (rewind detokenizer).update decodeNext newTokenIds stopTerminated =
      (rewind (detokenizer.update decodeNext newTokenIds stopTerminated).1,
        (detokenizer.update decodeNext newTokenIds stopTerminated).2) := by
  unfold IncrementalDetokenizer.update
  cases decoder : detokenizer.decoder with
  | none => simp [rewind, decoder]
  | some start =>
    simp only [rewind, decoder]
    by_cases nothing : newTokenIds = []
    · simp [nothing, decoder]
    · rw [if_neg nothing, if_neg nothing]
      exact evaluateStop_rewind (detokenizer.decode decodeNext start newTokenIds stopTerminated).1 _

/-- Where the text that may be handed out ends. -/
def readyLength (detokenizer : IncrementalDetokenizer State) (finished : Bool) : Nat :=
  detokenizer.outputText.length - if finished then 0 else detokenizer.stopBufferLength

/-- All text that is ready is handed out: the new part by a delta. -/
theorem getNextOutputText_delta {finished : Bool}
    (plain : detokenizer.decoder = none → detokenizer.outputText = [])
    (inside : detokenizer.lastOutputTextOffset ≤ readyLength detokenizer finished) :
    detokenizer.outputText.take detokenizer.lastOutputTextOffset ++
        (detokenizer.getNextOutputText finished true).1 =
      detokenizer.outputText.take (readyLength detokenizer finished) ∧
    (detokenizer.getNextOutputText finished true).2 =
      { detokenizer with lastOutputTextOffset := readyLength detokenizer finished } := by
  unfold IncrementalDetokenizer.getNextOutputText
  cases decoder : detokenizer.decoder with
  | none =>
    have empty := plain decoder
    have zero : readyLength detokenizer finished = 0 := by simp [readyLength, empty]
    have offset : detokenizer.lastOutputTextOffset = 0 := by omega
    have same : { detokenizer with decoder := none, lastOutputTextOffset := 0 } = detokenizer := by
      rw [← offset, ← decoder]
    rw [zero, same]
    exact ⟨by simp [empty], rfl⟩
  | some start =>
    change _ ++ (if detokenizer.lastOutputTextOffset < readyLength detokenizer finished then _
      else _ : List Char × IncrementalDetokenizer State).1 = _ ∧
      (if detokenizer.lastOutputTextOffset < readyLength detokenizer finished then _
      else _ : List Char × IncrementalDetokenizer State).2 = _
    by_cases more : detokenizer.lastOutputTextOffset < readyLength detokenizer finished
    · rw [if_pos more]
      constructor
      · have inner : detokenizer.outputText.take detokenizer.lastOutputTextOffset =
            (detokenizer.outputText.take (readyLength detokenizer finished)).take
              detokenizer.lastOutputTextOffset := by
          rw [take_take, Nat.min_eq_left inside]
        rw [inner]
        exact take_append_drop _ _
      · rfl
    · rw [if_neg more]
      have equal : detokenizer.lastOutputTextOffset = readyLength detokenizer finished := by omega
      exact ⟨by rw [append_nil, equal], by rw [← equal, ← decoder]⟩

theorem getNextOutputText_cumulative (finished : Bool)
    (plain : detokenizer.decoder = none → detokenizer.outputText = []) :
    (rewind detokenizer).getNextOutputText finished false =
      (detokenizer.outputText.take (readyLength detokenizer finished), rewind detokenizer) := by
  unfold IncrementalDetokenizer.getNextOutputText
  cases decoder : detokenizer.decoder with
  | none => simp [rewind, decoder, plain decoder]
  | some start =>
    simp only [rewind, decoder]
    rfl

end VllmDcu.DeltaText

import Mathlib.Data.List.Infix

/-! Words that a request must not produce: a token that would complete one loses its logit before the next
token is sampled. -/
namespace VllmDcu.BadWords
open List

variable {Logit : Type}

/-- A turn of the loop in `_apply_bad_words_single_batch`. The logit `none` is minus infinity; there is no
result on an IndexError. -/
def applyBadWord (pastTokensIds : List Nat) (logits : List (Option Logit)) (badWordIds : List Nat) :
    Option (List (Option Logit)) :=
  if badWordIds.length > pastTokensIds.length + 1 then some logits
  else
    let prefixLength := badWordIds.length - 1
    let actualPrefix :=
      if prefixLength > 0 then pastTokensIds.drop (pastTokensIds.length - prefixLength) else []
    badWordIds.getLast?.bind fun lastTokenId =>
      if actualPrefix ≠ badWordIds.take prefixLength then some logits
      else if lastTokenId < logits.length then some (logits.set lastTokenId none)
      else none

def applyBadWordsSingleBatch (logits : List (Option Logit)) (badWordsTokenIds : List (List Nat))
    (pastTokensIds : List Nat) : Option (List (Option Logit)) :=
  badWordsTokenIds.foldlM (applyBadWord pastTokensIds) logits

/-- The outputs that can be sampled: every token has a finite logit once the bad words are applied. -/
inductive Sampled (logitsAfter : List Nat → List (Option Logit)) (badWords : List (List Nat)) :
    List Nat → Prop
  | start : Sampled logitsAfter badWords []
  | next {output : List Nat} {token : Nat} {logits : List (Option Logit)} {logit : Logit}
      (sampled : Sampled logitsAfter badWords output)
      (applied : applyBadWordsSingleBatch (logitsAfter output) badWords output = some logits)
      (finite : logits[token]? = some (some logit)) : Sampled logitsAfter badWords (output ++ [token])

variable {past : List Nat} {token : Nat} {logits after : List (Option Logit)}

/-- A turn masks the last token of a word that it would complete, and no turn brings a logit back. -/
theorem applyBadWord_masks {badWordIds : List Nat}
    (applied : applyBadWord past logits badWordIds = some after)
    (masked : logits[token]? = some none ∨ ∃ front, front <:+ past ∧ badWordIds = front ++ [token]) :
    after[token]? = some none := by
  rcases masked with old | ⟨front, behind, rfl⟩
  · unfold applyBadWord at applied
    grind
  · have fits := behind.length_le
    have same := suffix_iff_eq_drop.mp behind
    unfold applyBadWord at applied
    grind

theorem applyBadWords_masks {badWords : List (List Nat)}
    (applied : applyBadWordsSingleBatch logits badWords past = some after)
    (masked : logits[token]? = some none ∨ ∃ front, front <:+ past ∧ front ++ [token] ∈ badWords) :
    after[token]? = some none := by
  induction badWords generalizing logits with
  | nil =>
    cases applied
    exact masked.resolve_right fun ⟨_, _, listed⟩ => not_mem_nil listed
  | cons badWordIds rest ih =>
    obtain ⟨middle, first, later⟩ := Option.bind_eq_some_iff.mp applied
    apply ih later
    rcases masked with old | ⟨front, behind, listed⟩
    · exact .inl (applyBadWord_masks first (.inl old))
    · rcases mem_cons.mp listed with same | others
      · exact .inl (applyBadWord_masks first (.inr ⟨front, behind, same.symm⟩))
      · exact .inr ⟨front, behind, others⟩

/-- No output contains a bad word. -/
theorem sampled_avoids (logitsAfter : List Nat → List (Option Logit)) (badWords : List (List Nat))
    (output : List Nat) (sampled : Sampled logitsAfter badWords output) :
    ∀ badWordIds ∈ badWords, badWordIds ≠ [] → ¬ badWordIds <:+: output := by
  induction sampled with
  | start => exact fun badWordIds _ some_ inside => some_ (infix_nil.mp inside)
  | next _ applied finite ih =>
    intro badWordIds listed some_ inside
    rcases infix_concat_iff.mp inside with last | before
    · obtain ⟨front, rfl, behind⟩ := (suffix_concat_iff.mp last).resolve_left some_
      rw [applyBadWords_masks applied (.inr ⟨front, behind, listed⟩)] at finite
      cases finite
    · exact ih badWordIds listed some_ before

theorem twoTokens_avoid : ¬ [0, 1] <:+: [1, 0] :=
  sampled_avoids (fun _ => [some 3, some 1, some (2 : Int)]) [[0, 1], [2]] [1, 0]
    (.next (.next .start rfl rfl) rfl rfl) [0, 1] mem_cons_self (by decide)

end VllmDcu.BadWords

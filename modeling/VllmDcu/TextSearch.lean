import Mathlib.Data.List.Infix

/-! Search for a pattern in a list of symbols, as `str.find` does. A tag is a
pattern whose first symbol does not occur again in it: an occurrence of a tag
cannot begin in a text and end in a tag that follows the text. -/
namespace VllmDcu.TextSearch
open List Option

variable {Symbol : Type}

structure Tag (first : Symbol) (pattern : List Symbol) : Prop where
  starts : pattern.head? = some first
  once : first ∉ pattern.tail

variable {first : Symbol} {pattern : List Symbol}

theorem Tag.shape (tag : Tag first pattern) : ∃ rest, pattern = first :: rest ∧ first ∉ rest := by
  obtain ⟨rest, same⟩ := head?_eq_some_iff.mp tag.starts
  refine ⟨rest, same, ?_⟩
  have := tag.once
  rwa [same] at this

theorem Tag.ne_nil (tag : Tag first pattern) : pattern ≠ [] := by
  obtain ⟨rest, same, _⟩ := tag.shape
  simp [same]

theorem Tag.head_append (tag : Tag first pattern) (rest : List Symbol) (symbol : Symbol)
    (starts : (pattern ++ rest).head? = some symbol) :
    symbol = first := by
  obtain ⟨tail, same, _⟩ := tag.shape
  simp only [same, cons_append, head?_cons, some.injEq] at starts
  exact starts.symm

/-- A prefix of a text and what follows is a prefix of the text when the text is
followed by the first symbol of the tag, or by nothing. -/
theorem Tag.prefix_append {text rest : List Symbol} (tag : Tag first pattern)
    (next : ∀ symbol, rest.head? = some symbol → symbol = first) (nonempty : text ≠ [])
    (found : pattern <+: text ++ rest) : pattern <+: text := by
  obtain ⟨tail, same, once⟩ := tag.shape
  subst same
  obtain ⟨symbol, textTail, rfl⟩ := exists_cons_of_ne_nil nonempty
  simp only [cons_append, cons_prefix_cons] at found ⊢
  refine ⟨found.1, ?_⟩
  rcases prefix_or_prefix_of_prefix found.2 (prefix_append textTail rest) with
    inside | ⟨beyond, longer⟩
  · exact inside
  · cases beyond with
    | nil => simp [← longer]
    | cons after _ =>
      -- The tag would go on with the symbol that follows the text.
      have follows : rest.head? = some after := by
        have := found.2
        rw [← longer, prefix_append_right_inj] at this
        obtain ⟨more, same⟩ := this
        simp [← same]
      rw [next after follows] at longer
      exact absurd (longer ▸ mem_append_right _ mem_cons_self) once

theorem Tag.infix_append_iff {text rest : List Symbol} (tag : Tag first pattern)
    (next : ∀ symbol, rest.head? = some symbol → symbol = first) :
    pattern <:+: text ++ rest ↔ pattern <:+: text ∨ pattern <:+: rest := by
  constructor
  · intro found
    induction text with
    | nil => exact Or.inr found
    | cons symbol tail ih =>
      rcases infix_cons_iff.mp found with here | later
      · exact Or.inl (tag.prefix_append next (by simp) here).isInfix
      · rcases ih later with inside | beyond
        · exact Or.inl (inside.trans (suffix_cons symbol tail).isInfix)
        · exact Or.inr beyond
  · rintro (inside | beyond)
    · exact inside.trans (List.prefix_append text rest).isInfix
    · exact beyond.trans (suffix_append text rest).isInfix

/-- Behind another tag a tag is found no earlier than after it. -/
theorem Tag.infix_tag_iff {other rest : List Symbol} (tag : Tag first pattern)
    (otherTag : Tag first other) (apart : ¬ pattern <+: other) (apart' : ¬ other <+: pattern) :
    pattern <:+: other ++ rest ↔ pattern <:+: rest := by
  have notHere : ¬ pattern <+: other ++ rest := by
    intro here
    rcases prefix_or_prefix_of_prefix here (List.prefix_append other rest) with shorter | longer
    · exact apart shorter
    · exact apart' longer
  obtain ⟨tail, same, once⟩ := otherTag.shape
  subst same
  have skip : ∀ middle : List Symbol, first ∉ middle →
      (pattern <:+: middle ++ rest ↔ pattern <:+: rest) := by
    intro middle absent
    induction middle with
    | nil => rfl
    | cons symbol middle ih =>
      simp only [mem_cons, not_or] at absent
      rw [cons_append, infix_cons_iff, ih absent.2]
      constructor
      · rintro (here | later)
        · obtain ⟨patternTail, rfl, _⟩ := tag.shape
          simp only [cons_prefix_cons] at here
          exact absurd here.1 absent.1
        · exact later
      · exact Or.inr
  rw [cons_append, infix_cons_iff, skip tail once]
  constructor
  · rintro (here | later)
    · exact absurd here notHere
    · exact later
  · exact Or.inr

section
variable [DecidableEq Symbol]

/-- The position of the first occurrence. -/
def find (pattern : List Symbol) : List Symbol → Option Nat
  | [] => if pattern = [] then some 0 else none
  | symbol :: rest =>
    if pattern.isPrefixOf (symbol :: rest) then some 0 else (find pattern rest).map (· + 1)

theorem find_eq_none_iff {pattern text : List Symbol} :
    find pattern text = none ↔ ¬ pattern <:+: text := by
  induction text with
  | nil => simp [find]
  | cons symbol rest ih =>
    rw [find, infix_cons_iff]
    by_cases here : pattern <+: symbol :: rest
    · simp [here]
    · simp [here, ih]

theorem find_prefix (pattern rest : List Symbol) : find pattern (pattern ++ rest) = some 0 := by
  cases joined : pattern ++ rest with
  | nil =>
    have : pattern = [] := (append_eq_nil_iff.mp joined).1
    simp [find, this]
  | cons symbol tail =>
    have here : pattern <+: symbol :: tail := joined ▸ prefix_append pattern rest
    simp [find, here]

theorem find_le (pattern text : List Symbol) (index : Nat) (found : find pattern text = some index) :
    index + pattern.length ≤ text.length := by
  induction text generalizing index with
  | nil =>
    simp only [find, ite_none_right_eq_some, some.injEq] at found
    obtain ⟨rfl, rfl⟩ := found
    simp
  | cons symbol tail ih =>
    rw [find] at found
    split at found
    · rename_i here
      rw [← some.inj found, Nat.zero_add]
      exact (List.isPrefixOf_iff_prefix.mp here).length_le
    · obtain ⟨later, foundLater, rfl⟩ := map_eq_some_iff.mp found
      have := ih later foundLater
      simp only [length_cons]
      omega

/-- An occurrence in a text is found first, whatever follows. -/
theorem find_append_left (pattern text rest : List Symbol) (index : Nat)
    (found : find pattern text = some index) : find pattern (text ++ rest) = some index := by
  induction text generalizing index with
  | nil =>
    simp only [find, ite_none_right_eq_some, some.injEq] at found
    obtain ⟨rfl, rfl⟩ := found
    exact find_prefix [] rest
  | cons symbol tail ih =>
    rw [cons_append, find]
    rw [find] at found
    split at found
    · rename_i here
      rw [if_pos]
      · exact found
      · simp only [List.isPrefixOf_iff_prefix] at here ⊢
        exact here.trans (prefix_append (symbol :: tail) rest)
    · rename_i notHere
      obtain ⟨later, foundLater, rfl⟩ := map_eq_some_iff.mp found
      -- The occurrence found ends inside the text, so an earlier one would too.
      have within : pattern.length ≤ (symbol :: tail).length := by
        have := find_le pattern tail later foundLater
        simp only [length_cons]
        omega
      have notPrefix : ¬ pattern.isPrefixOf (symbol :: (tail ++ rest)) = true := by
        intro earlier
        apply notHere
        rw [List.isPrefixOf_iff_prefix] at earlier ⊢
        exact prefix_of_prefix_length_le earlier (prefix_append (symbol :: tail) rest) within
      rw [if_neg notPrefix, ih later foundLater]
      rfl

/-- Without an occurrence in the text the search goes on behind it. -/
theorem Tag.find_append {first : Symbol} {pattern text rest : List Symbol}
    (tag : Tag first pattern) (next : ∀ symbol, rest.head? = some symbol → symbol = first)
    (absent : ¬ pattern <:+: text) :
    find pattern (text ++ rest) = (find pattern rest).map (text.length + ·) := by
  induction text with
  | nil =>
    cases found : find pattern rest with
    | none => simp [found]
    | some index => simp [found]
  | cons symbol tail ih =>
    have absentTail : ¬ pattern <:+: tail :=
      fun inside => absent (inside.trans (suffix_cons symbol tail).isInfix)
    have notHere : ¬ pattern.isPrefixOf (symbol :: (tail ++ rest)) = true := by
      intro here
      rw [List.isPrefixOf_iff_prefix] at here
      exact absent (tag.prefix_append next (cons_ne_nil symbol tail) here).isInfix
    rw [cons_append, find, if_neg notHere, ih absentTail]
    cases find pattern rest with
    | none => rfl
    | some index => simp [Nat.add_right_comm]

/-- The first occurrence of a tag that follows a text without it. -/
theorem Tag.find_after {first : Symbol} {pattern text : List Symbol} (rest : List Symbol)
    (tag : Tag first pattern) (absent : ¬ pattern <:+: text) :
    find pattern (text ++ pattern ++ rest) = some text.length := by
  rw [append_assoc, tag.find_append (tag.head_append rest) absent, find_prefix]
  rfl

/-- `str.partition`: the text before the pattern, the pattern and the text after it. -/
def partition (pattern text : List Symbol) : List Symbol × List Symbol × List Symbol :=
  match find pattern text with
  | none => (text, [], [])
  | some index => (text.take index, pattern, text.drop (index + pattern.length))

theorem partition_absent (pattern text : List Symbol) (absent : ¬ pattern <:+: text) :
    partition pattern text = (text, [], []) := by
  simp [partition, find_eq_none_iff.mpr absent]

theorem Tag.partition_after {first : Symbol} {pattern text : List Symbol} (rest : List Symbol)
    (tag : Tag first pattern) (absent : ¬ pattern <:+: text) :
    partition pattern (text ++ pattern ++ rest) = (text, pattern, rest) := by
  rw [partition, tag.find_after rest absent]
  simp only
  rw [← length_append, drop_left, append_assoc, take_left]

end
end VllmDcu.TextSearch

import VllmDcu.Borders

/-! N-gram drafting: the longest end of the tokens that occurs earlier, and what followed it.
The scan runs over the reversed tokens, where that end is a prefix. -/
namespace VllmDcu.NgramProposer
open Borders List Option

variable {Token : Type} [DecidableEq Token]

/-- The variables of the loop. -/
structure Scan where
  lps : List Nat
  longestNgram : Nat
  position : Nat
  prevLps : Nat
  i : Nat

namespace Scan

def init (maxNgram : Nat) : Scan := ⟨List.replicate maxNgram 0, 0, 0, 0, 1⟩

/-- The write `lps[i] = prev_lps`; none out of range. -/
def store (lps : List Nat) (i prevLps : Nat) : Option (List Nat) :=
  if i < lps.length then some (lps.set i prevLps) else none

/-- The branch of a token match. -/
def matched (maxNgram : Nat) (scan : Scan) : Option Scan :=
  let prevLps := scan.prevLps + 1
  let best := if prevLps ≥ scan.longestNgram then (prevLps, scan.i)
    else (scan.longestNgram, scan.position)
  (if scan.i < maxNgram then store scan.lps scan.i prevLps else some scan.lps).bind fun lps =>
    (if prevLps = maxNgram then lps[maxNgram - 1]? else some prevLps).map fun prevLps =>
      ⟨lps, best.1, best.2, prevLps, scan.i + 1⟩

/-- One turn of the loop; none when an index is out of range. -/
def turn (tokens : List Token) (maxNgram : Nat) (scan : Scan) : Option Scan :=
  match tokens[scan.prevLps]?, tokens[scan.i]? with
  | some expected, some token =>
    if expected = token then scan.matched maxNgram
    else if scan.prevLps ≠ 0 then
      scan.lps[scan.prevLps - 1]?.map fun prevLps => { scan with prevLps := prevLps }
    else some { scan with i := scan.i + 1 }
  | _, _ => none

/-- The loop; none without the fuel for its turns. -/
def loop (tokens : List Token) (maxNgram : Nat) : Nat → Scan → Option Scan
  | 0, scan => if scan.i < tokens.length then none else some scan
  | fuel + 1, scan =>
    if scan.i < tokens.length then (scan.turn tokens maxNgram).bind (loop tokens maxNgram fuel)
    else some scan

end Scan

def findLongestMatchedNgramAndProposeTokens (fuel : Nat) (originTokens : List Token)
    (minNgram maxNgram : Nat) (maxModelLen k : Int) : Option (List Token) :=
  let totalToken := originTokens.length
  if totalToken < minNgram then some []
  else
    let k := min k (maxModelLen - totalToken)
    if k ≤ 0 then some []
    else
      (Scan.loop originTokens.reverse maxNgram fuel (Scan.init maxNgram)).map fun scan =>
        if scan.longestNgram < minNgram then []
        else
          let startPosition := totalToken - 1 - scan.position + scan.longestNgram
          let k := min k ((totalToken : Int) - startPosition)
          (originTokens.drop startPosition).take k.toNat

/-! What it is for. -/

/-- The last `n` tokens are also there from `start`, an earlier place. -/
def Recurs (tokens : List Token) (n start : Nat) : Prop :=
  start + n < tokens.length ∧ (tokens.drop start).take n = tokens.drop (tokens.length - n)

/-- The longest n-gram of an allowed length that recurs, at its earliest place. -/
structure Chosen (tokens : List Token) (minNgram maxNgram n start : Nat) : Prop where
  least : minNgram ≤ n
  most : n ≤ maxNgram
  recurs : Recurs tokens n start
  longest : ∀ m other, minNgram ≤ m → m ≤ maxNgram → Recurs tokens m other → m ≤ n
  earliest : ∀ other, Recurs tokens n other → start ≤ other

/-- Up to `k` tokens that follow the chosen n-gram; none without one. -/
def FollowsChosen (tokens : List Token) (minNgram maxNgram : Nat) (k : Int)
    (drafts : List Token) : Prop :=
  (0 < k ∧ ∃ n start, Chosen tokens minNgram maxNgram n start ∧
      drafts = (tokens.drop (start + n)).take k.toNat) ∨
    (k ≤ 0 ∨ ∀ n start, minNgram ≤ n → n ≤ maxNgram → ¬ Recurs tokens n start) ∧ drafts = []

/-! One turn. -/

/-- The longest capped border that ended so far, and the last place where it did. -/
structure Best (tokens : List Token) (maxNgram seen longestNgram position : Nat) : Prop where
  found : longestNgram = 0 ∨ longestNgram ≤ maxNgram ∧ position < seen ∧
    Border tokens longestNgram (position + 1)
  most : ∀ v stop, 0 < v → v ≤ maxNgram → stop ≤ seen → Border tokens v stop →
    v ≤ longestNgram ∧ (v = longestNgram → stop ≤ position + 1)

/-- Between two turns: borders longer than `prev_lps` do not go on with the next token. -/
structure Scanned (tokens : List Token) (maxNgram : Nat) (scan : Scan) : Prop where
  capped : scan.prevLps < maxNgram
  border : Border tokens scan.prevLps scan.i
  excluded : ∀ v, scan.prevLps < v → v < maxNgram → Border tokens v scan.i →
    tokens[v]? ≠ tokens[scan.i]?
  table : scan.lps.length = maxNgram
  computed : ∀ j < scan.i, j < maxNgram → ∃ v, scan.lps[j]? = some v ∧ Longest tokens v (j + 1)
  zeros : ∀ j, scan.i ≤ j → j < maxNgram → scan.lps[j]? = some 0
  best : Best tokens maxNgram scan.i scan.longestNgram scan.position

section Turn
variable {tokens : List Token} {maxNgram : Nat} {scan : Scan}

omit [DecidableEq Token]

/-- The borders of the next place are at most one longer than `prev_lps`. -/
theorem Scanned.bounded (scanned : Scanned tokens maxNgram scan) (v : Nat) (cap : v ≤ maxNgram)
    (border : Border tokens v (scan.i + 1)) : v ≤ scan.prevLps + 1 := by
  cases v with
  | zero => exact Nat.zero_le _
  | succ v =>
    obtain ⟨before, same⟩ := Border.succ_iff.mp border
    by_contra longer
    exact scanned.excluded v (by omega) (by omega) before same

theorem Best.extended {seen longestNgram position v : Nat}
    (best : Best tokens maxNgram seen longestNgram position) (cap : v ≤ maxNgram)
    (border : Border tokens v (seen + 1))
    (bounded : ∀ w, w ≤ maxNgram → Border tokens w (seen + 1) → w ≤ v) :
    Best tokens maxNgram (seen + 1)
      (if v ≥ longestNgram then (v, seen) else (longestNgram, position)).1
      (if v ≥ longestNgram then (v, seen) else (longestNgram, position)).2 := by
  by_cases longer : v ≥ longestNgram
  · rw [if_pos longer]
    constructor
    · exact Or.inr ⟨cap, Nat.lt_succ_self seen, border⟩
    · intro w stop positive capped inside ended
      constructor
      · by_cases last : stop = seen + 1
        · subst last
          exact bounded w capped ended
        · exact Nat.le_trans (best.most w stop positive capped (by omega) ended).1 longer
      · exact fun _ => inside
  · rw [if_neg longer]
    constructor
    · rcases best.found with unfound | ⟨capped, before, ended⟩
      · exact Or.inl unfound
      · exact Or.inr ⟨capped, Nat.lt_succ_of_lt before, ended⟩
    · intro w stop positive capped inside ended
      by_cases last : stop = seen + 1
      · subst last
        have shorter := bounded w capped ended
        exact ⟨by omega, by omega⟩
      · exact best.most w stop positive capped (by omega) ended

theorem Best.skipped {seen longestNgram position : Nat}
    (best : Best tokens maxNgram seen longestNgram position)
    (nothing : ∀ v, 0 < v → v ≤ maxNgram → ¬ Border tokens v (seen + 1)) :
    Best tokens maxNgram (seen + 1) longestNgram position := by
  constructor
  · rcases best.found with unfound | ⟨capped, before, ended⟩
    · exact Or.inl unfound
    · exact Or.inr ⟨capped, Nat.lt_succ_of_lt before, ended⟩
  · intro v stop positive capped inside ended
    by_cases last : stop = seen + 1
    · subst last
      exact absurd ended (nothing v positive capped)
    · exact best.most v stop positive capped (by omega) ended

section
variable (scanned : Scanned tokens maxNgram scan)
include scanned

/-- The table after the turn that stores `v`, or leaves the zero. -/
theorem Scanned.stored (v : Nat) (lps : List Nat)
    (written : scan.i < maxNgram → lps[scan.i]? = some v)
    (others : ∀ j, j ≠ scan.i → lps[j]? = scan.lps[j]?)
    (longest : scan.i < maxNgram → Longest tokens v (scan.i + 1)) :
    (∀ j < scan.i + 1, j < maxNgram → ∃ v, lps[j]? = some v ∧ Longest tokens v (j + 1)) ∧
      ∀ j, scan.i + 1 ≤ j → j < maxNgram → lps[j]? = some 0 := by
  constructor
  · intro j inside capped
    by_cases last : j = scan.i
    · subst last
      exact ⟨v, written capped, longest capped⟩
    · rw [others j last]
      exact scanned.computed j (by omega) capped
  · intro j after capped
    rw [others j (by omega)]
    exact scanned.zeros j (by omega) capped

theorem Scanned.matched (same : tokens[scan.prevLps]? = tokens[scan.i]?) :
    ∃ next, scan.matched maxNgram = some next ∧ Scanned tokens maxNgram next ∧
      next.i = scan.i + 1 ∧ next.prevLps ≤ scan.prevLps + 1 := by
  have border : Border tokens (scan.prevLps + 1) (scan.i + 1) :=
    Border.succ_iff.mpr ⟨scanned.border, same⟩
  have capped := scanned.capped
  have proper := scanned.border.1
  -- the write to the table
  obtain ⟨lps, store, length, written, others⟩ : ∃ lps,
      (if scan.i < maxNgram then Scan.store scan.lps scan.i (scan.prevLps + 1)
        else some scan.lps) = some lps ∧ lps.length = maxNgram ∧
      (scan.i < maxNgram → lps[scan.i]? = some (scan.prevLps + 1)) ∧
      ∀ j, j ≠ scan.i → lps[j]? = scan.lps[j]? := by
    by_cases inside : scan.i < maxNgram
    · have bound : scan.i < scan.lps.length := scanned.table.symm ▸ inside
      refine ⟨scan.lps.set scan.i (scan.prevLps + 1), ?_, ?_, ?_, ?_⟩
      · rw [if_pos inside, Scan.store, if_pos bound]
      · rw [length_set, scanned.table]
      · exact fun _ => getElem?_set_self bound
      · exact fun j other => getElem?_set_ne (Ne.symm other)
    · refine ⟨scan.lps, if_neg inside, scanned.table, fun impossible => ?_, fun j _ => rfl⟩
      contradiction
  obtain ⟨computed, zeros⟩ := scanned.stored (scan.prevLps + 1) lps written others (by
    intro inside
    constructor
    · exact border
    · intro w ended
      exact scanned.bounded w (by have := ended.1; omega) ended)
  have best := scanned.best.extended (by omega) border scanned.bounded
  unfold Scan.matched
  simp only [store, bind_some]
  by_cases full : scan.prevLps + 1 = maxNgram
  · -- at the cap, go on with the next shorter border
    obtain ⟨v, read, longest⟩ := computed (maxNgram - 1) (by omega) (by omega)
    have end_eq : maxNgram - 1 + 1 = scan.prevLps + 1 := by omega
    rw [end_eq] at longest
    obtain ⟨kept, shorter⟩ := longest.next border
    have less := longest.1.1
    rw [if_pos full, read]
    refine ⟨_, rfl, ?_, rfl, ?_⟩
    · constructor
      · exact Nat.lt_of_lt_of_eq less full
      · exact kept
      · intro w longer within ended
        have := shorter w ended (by omega)
        simp only at longer
        omega
      · exact length
      · exact computed
      · exact zeros
      · exact best
    · simp only
      omega
  · rw [if_neg full]
    refine ⟨_, rfl, ?_, rfl, Nat.le_refl _⟩
    · constructor
      · simp only
        omega
      · exact border
      · intro w longer within ended
        have := scanned.bounded w (by omega) ended
        simp only at longer
        omega
      · exact length
      · exact computed
      · exact zeros
      · exact best

theorem Scanned.shorter
    (differ : tokens[scan.prevLps]? ≠ tokens[scan.i]?) (positive : scan.prevLps ≠ 0) :
    ∃ v, scan.lps[scan.prevLps - 1]? = some v ∧ v < scan.prevLps ∧
      Scanned tokens maxNgram { scan with prevLps := v } := by
  have capped := scanned.capped
  have proper := scanned.border.1
  obtain ⟨v, read, longest⟩ := scanned.computed (scan.prevLps - 1) (by omega) (by omega)
  rw [show scan.prevLps - 1 + 1 = scan.prevLps by omega] at longest
  obtain ⟨kept, shorter⟩ := longest.next scanned.border
  have less := longest.1.1
  refine ⟨v, read, less, ?_⟩
  constructor
  · exact Nat.lt_trans less capped
  · exact kept
  · intro w longer within ended
    simp only at longer ended ⊢
    by_cases earlier : w < scan.prevLps
    · have := shorter w ended earlier
      omega
    · by_cases equal : w = scan.prevLps
      · rw [equal]
        exact differ
      · exact scanned.excluded w (by omega) within ended
  · exact scanned.table
  · exact scanned.computed
  · exact scanned.zeros
  · exact scanned.best

theorem Scanned.skipped
    (differ : tokens[scan.prevLps]? ≠ tokens[scan.i]?) (zero : scan.prevLps = 0) :
    Scanned tokens maxNgram { scan with i := scan.i + 1 } := by
  have nothing : ∀ v, 0 < v → v ≤ maxNgram → ¬ Border tokens v (scan.i + 1) := by
    intro v positive within ended
    cases v with
    | zero => contradiction
    | succ v =>
      obtain ⟨before, same⟩ := Border.succ_iff.mp ended
      by_cases equal : v = scan.prevLps
      · exact differ (equal ▸ same)
      · exact scanned.excluded v (by omega) (by omega) before same
  obtain ⟨computed, zeros⟩ := scanned.stored 0 scan.lps
    (fun capped => scanned.zeros scan.i (Nat.le_refl _) capped) (fun _ _ => rfl) (by
      intro capped
      constructor
      · exact Border.zero (Nat.succ_pos _)
      · intro w ended
        by_contra longer
        exact nothing w (by omega) (by have := ended.1; omega) ended)
  constructor
  · exact scanned.capped
  · simp only [zero]
    exact Border.zero (Nat.succ_pos _)
  · intro v longer within ended
    exact absurd ended (nothing v (by simp only at longer; omega) (by omega))
  · exact scanned.table
  · exact computed
  · exact zeros
  · exact scanned.best.skipped nothing

end

end Turn

/-- A turn reads in range, keeps the invariant and gets nearer to the end. -/
theorem Scanned.turn {tokens : List Token} {maxNgram : Nat} {scan : Scan}
    (scanned : Scanned tokens maxNgram scan) (inside : scan.i < tokens.length) :
    ∃ next, scan.turn tokens maxNgram = some next ∧ Scanned tokens maxNgram next ∧
      next.i ≤ tokens.length ∧
      2 * (tokens.length - next.i) + next.prevLps < 2 * (tokens.length - scan.i) + scan.prevLps := by
  have proper := scanned.border.1
  have expected := getElem?_eq_getElem (Nat.lt_trans proper inside)
  have token := getElem?_eq_getElem inside
  unfold Scan.turn
  rw [expected, token]
  simp only
  by_cases same : tokens[scan.prevLps] = tokens[scan.i]
  · obtain ⟨next, made, kept, i, prevLps⟩ := scanned.matched (by rw [expected, token, same])
    refine ⟨next, ?_, kept, ?_, ?_⟩
    · rw [if_pos same, made]
    · omega
    · omega
  · have differ : tokens[scan.prevLps]? ≠ tokens[scan.i]? := by
      rw [expected, token]
      exact fun equal => same (some.inj equal)
    rw [if_neg same]
    by_cases positive : scan.prevLps ≠ 0
    · obtain ⟨v, read, less, kept⟩ := scanned.shorter differ positive
      refine ⟨{ scan with prevLps := v }, ?_, kept, ?_, ?_⟩
      · rw [if_pos positive, read]
        rfl
      · exact Nat.le_of_lt inside
      · simp only
        omega
    · refine ⟨{ scan with i := scan.i + 1 }, if_neg positive, scanned.skipped differ (by omega), ?_, ?_⟩
      · exact inside
      · simp only
        omega

/-! The loop. -/

theorem Scanned.loop {tokens : List Token} {maxNgram : Nat} (turns : Nat) (scan : Scan)
    (scanned : Scanned tokens maxNgram scan) (inside : scan.i ≤ tokens.length)
    (enough : 2 * (tokens.length - scan.i) + scan.prevLps ≤ turns) :
    ∃ final, (∀ fuel, turns ≤ fuel → Scan.loop tokens maxNgram fuel scan = some final) ∧
      Best tokens maxNgram tokens.length final.longestNgram final.position := by
  induction turns generalizing scan with
  | zero =>
    have ended : scan.i = tokens.length := by omega
    refine ⟨scan, ?_, ended ▸ scanned.best⟩
    intro fuel _
    cases fuel with
    | zero => rw [Scan.loop, if_neg (by omega)]
    | succ fuel => rw [Scan.loop, if_neg (by omega)]
  | succ turns ih =>
    by_cases more : scan.i < tokens.length
    · obtain ⟨next, made, kept, bound, nearer⟩ := scanned.turn more
      obtain ⟨final, ends, best⟩ := ih next kept bound (by omega)
      refine ⟨final, ?_, best⟩
      intro fuel fueled
      cases fuel with
      | zero => contradiction
      | succ fuel =>
        rw [Scan.loop, if_pos more, made]
        exact ends fuel (by omega)
    · have ended : scan.i = tokens.length := by omega
      refine ⟨scan, ?_, ended ▸ scanned.best⟩
      intro fuel _
      cases fuel with
      | zero => rw [Scan.loop, if_neg more]
      | succ fuel => rw [Scan.loop, if_neg more]

variable (tokens : List Token)

omit [DecidableEq Token] in
theorem Scanned.init (maxNgram : Nat) (positive : 0 < maxNgram) :
    Scanned tokens maxNgram (Scan.init maxNgram) := by
  constructor
  · exact positive
  · exact Border.zero Nat.one_pos
  · intro v longer _ ended
    have proper := ended.1
    simp only [Scan.init] at longer proper
    omega
  · exact length_replicate
  · intro j first capped
    simp only [Scan.init] at first ⊢
    have zero : j = 0 := by omega
    subst zero
    exact ⟨0, by rw [getElem?_replicate, if_pos capped], Longest.one⟩
  · intro j _ capped
    rw [Scan.init, getElem?_replicate, if_pos capped]
  · constructor
    · exact Or.inl rfl
    · intro v stop longer _ first ended
      have proper := ended.1
      simp only [Scan.init] at first
      omega

omit [DecidableEq Token] in
/-- What recurs in the tokens is a border of the reversed ones. -/
theorem recurs_iff {n start : Nat} :
    Recurs tokens n start ↔ Border tokens.reverse n (tokens.length - start) := by
  unfold Recurs Border
  by_cases within : start + n < tokens.length
  · have proper : n < tokens.length - start := by omega
    simp only [within, proper, true_and]
    have read (j : Nat) (inside : j < n) :
        tokens.reverse[j]? = tokens[tokens.length - n + (n - 1 - j)]? ∧
          tokens.reverse[tokens.length - start - n + j]? = tokens[start + (n - 1 - j)]? := by
      rw [getElem?_reverse (by omega), getElem?_reverse (by omega)]
      constructor
      · congr 1
        omega
      · congr 1
        omega
    constructor
    · intro same j inside
      obtain ⟨front, back⟩ := read j inside
      have entry := congrArg (·[n - 1 - j]?) same
      simp only [getElem?_take, getElem?_drop] at entry
      rw [if_pos (by omega)] at entry
      rw [front, back, entry]
    · intro same
      apply ext_getElem?
      intro j
      rw [getElem?_take, getElem?_drop, getElem?_drop]
      by_cases inside : j < n
      · obtain ⟨front, back⟩ := read (n - 1 - j) (by omega)
        have entry := same (n - 1 - j) (by omega)
        rw [front, back, show n - 1 - (n - 1 - j) = j by omega] at entry
        rw [if_pos inside, entry]
      · rw [if_neg inside, getElem?_eq_none (by omega)]
  · omega

omit [DecidableEq Token] in
/-- What the scan found, for the tokens in their own order. -/
theorem best_chosen (minNgram maxNgram longestNgram position : Nat) (positive : 0 < minNgram)
    (best : Best tokens.reverse maxNgram tokens.length longestNgram position) :
    (longestNgram < minNgram → ∀ n start, minNgram ≤ n → n ≤ maxNgram → ¬ Recurs tokens n start) ∧
    (minNgram ≤ longestNgram → position < tokens.length ∧
      Chosen tokens minNgram maxNgram longestNgram (tokens.length - 1 - position)) := by
  constructor
  · intro short n start least most recurs
    have ended := (recurs_iff tokens).mp recurs
    have bound := (best.most n _ (by omega) most (by omega) ended).1
    omega
  · intro enough
    rcases best.found with unfound | ⟨capped, before, ended⟩
    · omega
    · refine ⟨before, ?_⟩
      constructor
      · exact enough
      · exact capped
      · rw [recurs_iff, show tokens.length - (tokens.length - 1 - position) = position + 1 by omega]
        exact ended
      · intro m other least most recurs
        have ended := (recurs_iff tokens).mp recurs
        exact (best.most m _ (by omega) most (by omega) ended).1
      · intro other recurs
        have ended := (recurs_iff tokens).mp recurs
        have last := (best.most longestNgram _ (by omega) capped (by omega) ended).2 rfl
        omega

/-- The loop ends within two turns for each token and reads in range; the drafts are what follows the
chosen n-gram, if drafts are allowed and there is one. -/
theorem propose_followsChosen (originTokens : List Token) (minNgram maxNgram : Nat)
    (maxModelLen k : Int) (positive : 1 ≤ minNgram) (ordered : minNgram ≤ maxNgram) :
    ∃ drafts, (∀ fuel, 2 * originTokens.length ≤ fuel →
      findLongestMatchedNgramAndProposeTokens fuel originTokens minNgram maxNgram maxModelLen k =
        some drafts) ∧
      FollowsChosen originTokens minNgram maxNgram (min k (maxModelLen - originTokens.length))
        drafts := by
  unfold findLongestMatchedNgramAndProposeTokens
  by_cases few : originTokens.length < minNgram
  · refine ⟨[], fun fuel _ => if_pos few, Or.inr ⟨Or.inr ?_, rfl⟩⟩
    intro n start least _ recurs
    have within := recurs.1
    omega
  · by_cases beyond : min k (maxModelLen - originTokens.length) ≤ 0
    · refine ⟨[], fun fuel _ => ?_, Or.inr ⟨Or.inl beyond, rfl⟩⟩
      rw [if_neg few, if_pos beyond]
    · have length : originTokens.reverse.length = originTokens.length := length_reverse
      obtain ⟨final, ends, best⟩ := Scanned.loop (2 * originTokens.length) (Scan.init maxNgram)
        (Scanned.init originTokens.reverse maxNgram (by omega))
        (by simp only [length, Scan.init]; omega) (by simp only [length, Scan.init]; omega)
      rw [length] at best
      obtain ⟨unfound, found⟩ := best_chosen originTokens minNgram maxNgram final.longestNgram
        final.position positive best
      simp only [if_neg few, if_neg beyond]
      by_cases short : final.longestNgram < minNgram
      · refine ⟨[], fun fuel fueled => ?_, Or.inr ⟨Or.inr (unfound short), rfl⟩⟩
        rw [ends fuel fueled, map_some, if_pos short]
      · obtain ⟨before, chosen⟩ := found (by omega)
        refine ⟨_, fun fuel fueled => ?_, Or.inl ⟨by omega, _, _, chosen, rfl⟩⟩
        rw [ends fuel fueled, map_some, if_neg short]
        -- the second `min` cuts no more than the end of the tokens does
        congr 1
        rw [take_eq_take_iff, length_drop]
        omega

theorem periodic_followsChosen : ∃ drafts, (∀ fuel, 2 * 7 ≤ fuel →
    findLongestMatchedNgramAndProposeTokens fuel [5, 6, 5, 6, 5, 6, 5] 2 3 9 4 = some drafts) ∧
      FollowsChosen [5, 6, 5, 6, 5, 6, 5] 2 3 (min 4 (9 - (7 : Nat))) drafts :=
  propose_followsChosen [5, 6, 5, 6, 5, 6, 5] 2 3 9 4 (by decide) (by decide)

example : findLongestMatchedNgramAndProposeTokens 14 [5, 6, 5, 6, 5, 6, 5] 2 3 9 4 =
    some [6, 5] := by decide

end VllmDcu.NgramProposer

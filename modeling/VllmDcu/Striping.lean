import Mathlib.Order.Basic

/-! Positions dealt out to ranks in runs of one length: the rank of a position, the place it has on that
rank, and how many places a rank has used. -/
namespace VllmDcu.Striping

variable {run ranks : Nat}

/-- The rank whose turn it is. -/
def turn (run ranks position : Nat) : Nat := position / run % ranks

/-- The place on that rank. -/
def place (run ranks position : Nat) : Nat := position / (ranks * run) * run + position % run

/-- How many positions before this one are on the rank. -/
def used (run ranks position rank : Nat) : Nat :=
  position / run / ranks * run + min (position - position / run / ranks * run * ranks - rank * run) run

theorem turn_lt (positive : 0 < ranks) (position : Nat) : turn run ranks position < ranks :=
  Nat.mod_lt _ positive

/-- A position by its round, its turn and its offset in the run. -/
theorem position_digits (position : Nat) :
    position = (position / (ranks * run) * ranks + turn run ranks position) * run + position % run := by
  have inner := Nat.div_add_mod position run
  have outer := Nat.div_add_mod (position / run) ranks
  rw [Nat.mul_comm ranks run, ← Nat.div_div_eq_div_mul, turn, Nat.mul_comm _ ranks, outer, Nat.mul_comm,
    inner]

theorem digits_turn (round rank offset : Nat) (below : rank < ranks) (inside : offset < run) :
    turn run ranks ((round * ranks + rank) * run + offset) = rank := by
  have positive : 0 < run := by omega
  rw [turn, Nat.mul_comm _ run, Nat.mul_add_div positive, Nat.div_eq_of_lt inside, Nat.add_zero,
    Nat.mul_comm round, Nat.mul_add_mod, Nat.mod_eq_of_lt below]

theorem digits_round {round rank offset : Nat} (below : rank < ranks) (inside : offset < run) :
    ((round * ranks + rank) * run + offset) / run / ranks = round := by
  have positive : 0 < run := by omega
  rw [Nat.mul_comm _ run, Nat.mul_add_div positive, Nat.div_eq_of_lt inside, Nat.add_zero,
    Nat.mul_comm round, Nat.mul_add_div (by omega), Nat.div_eq_of_lt below, Nat.add_zero]

theorem digits_place (round rank offset : Nat) (below : rank < ranks) (inside : offset < run) :
    place run ranks ((round * ranks + rank) * run + offset) = round * run + offset := by
  rw [place, Nat.mul_comm ranks run, ← Nat.div_div_eq_div_mul, digits_round below inside,
    Nat.mul_comm (_ + rank) run, Nat.mul_add_mod, Nat.mod_eq_of_lt inside]

theorem digits_used {round turn_ offset rank : Nat} (below : turn_ < ranks) (inside : offset < run) :
    used run ranks ((round * ranks + turn_) * run + offset) rank =
      round * run + if rank < turn_ then run else if rank = turn_ then offset else 0 := by
  have total : (round * ranks + turn_) * run + offset = round * run * ranks + (turn_ * run + offset) := by
    rw [Nat.add_mul, Nat.mul_right_comm]
    omega
  rw [used, digits_round below inside, total, Nat.add_sub_cancel_left]
  congr 1
  by_cases before : rank < turn_
  · have more : (rank + 1) * run ≤ turn_ * run := Nat.mul_le_mul_right run before
    rw [Nat.add_mul] at more
    rw [if_pos before]
    omega
  · rw [if_neg before]
    by_cases same : rank = turn_
    · rw [if_pos same, same]
      omega
    · have more : (turn_ + 1) * run ≤ rank * run := Nat.mul_le_mul_right run (by omega)
      rw [Nat.add_mul] at more
      rw [if_neg same]
      omega

/-- A position is known by its rank and its place there. -/
theorem place_injective (positive : 0 < run) (first second : Nat)
    (sameTurn : turn run ranks first = turn run ranks second)
    (samePlace : place run ranks first = place run ranks second) : first = second := by
  have split (position : Nat) : place run ranks position / run = position / (ranks * run) ∧
      place run ranks position % run = position % run := by
    have inside := Nat.mod_lt position positive
    rw [place, Nat.mul_comm _ run]
    constructor
    · rw [Nat.mul_add_div positive, Nat.div_eq_of_lt inside, Nat.add_zero]
    · rw [Nat.mul_add_mod, Nat.mod_mod]
  have sameRound : first / (ranks * run) = second / (ranks * run) := by
    rw [← (split first).1, ← (split second).1, samePlace]
  have sameOffset : first % run = second % run := by
    rw [← (split first).2, ← (split second).2, samePlace]
  rw [@position_digits run ranks first, @position_digits run ranks second, sameTurn, sameRound,
    sameOffset]

/-- In whole rounds the places of a rank are numbered without a gap. -/
theorem place_lt (positive : 0 < run) (rounds position : Nat)
    (inside : position < rounds * run * ranks) : place run ranks position < rounds * run := by
  have below : position / (ranks * run) < rounds := by
    apply Nat.div_lt_of_lt_mul
    rw [Nat.mul_comm ranks, Nat.mul_comm (run * ranks), ← Nat.mul_assoc]
    exact inside
  have more : (position / (ranks * run) + 1) * run ≤ rounds * run := Nat.mul_le_mul_right run below
  have offset := Nat.mod_lt position positive
  rw [Nat.add_mul] at more
  rw [place]
  omega

/-- Whole rounds later the same rank has its turn, as many places further. -/
theorem turn_shift (positive : 0 < run) (rounds count position : Nat) :
    turn run ranks (count * (rounds * run * ranks) + position) = turn run ranks position := by
  have whole : count * (rounds * run * ranks) = run * (ranks * (count * rounds)) := by
    simp only [Nat.mul_comm, Nat.mul_left_comm]
  rw [turn, whole, Nat.mul_add_div positive, Nat.mul_add_mod]
  rfl

theorem place_shift (positive : 0 < run) (some_ : 0 < ranks) (rounds count position : Nat) :
    place run ranks (count * (rounds * run * ranks) + position) =
      count * (rounds * run) + place run ranks position := by
  have whole : count * (rounds * run * ranks) = ranks * run * (count * rounds) := by
    simp only [Nat.mul_comm, Nat.mul_left_comm]
  have inner : ranks * run * (count * rounds) = run * (ranks * (count * rounds)) := by
    simp only [Nat.mul_comm, Nat.mul_left_comm]
  rw [place, whole, Nat.mul_add_div (Nat.mul_pos some_ positive), inner, Nat.mul_add_mod, Nat.add_mul,
    Nat.mul_assoc count, Nat.add_assoc]
  rfl

/-! The places in use. -/

theorem used_zero (rank : Nat) : used run ranks 0 rank = 0 := by
  rw [used, Nat.zero_div, Nat.zero_div, Nat.zero_mul]
  omega

/-- The places before a position are those in use. -/
theorem place_eq_used (positive : 0 < run) (some_ : 0 < ranks) (position : Nat) :
    place run ranks position = used run ranks position (turn run ranks position) := by
  have below := @turn_lt run ranks some_ position
  have inside := Nat.mod_lt position positive
  have digits := @position_digits run ranks position
  generalize position / (ranks * run) = round at digits
  generalize turn run ranks position = turn_ at digits below
  generalize position % run = offset at digits inside
  subst digits
  rw [digits_place _ _ _ below inside, digits_used below inside, if_neg (Nat.lt_irrefl _),
    if_pos rfl]

/-- One position more uses one more place of its rank, and none of another. -/
theorem used_succ (positive : 0 < run) (position rank : Nat) (known : rank < ranks) :
    used run ranks (position + 1) rank =
      used run ranks position rank + if turn run ranks position = rank then 1 else 0 := by
  have below := @turn_lt run ranks (by omega) position
  have inside := Nat.mod_lt position positive
  have digits := @position_digits run ranks position
  generalize position / (ranks * run) = round at digits
  generalize turn run ranks position = turn_ at digits below
  generalize position % run = offset at digits inside
  subst digits
  rw [digits_used below inside]
  by_cases within : offset + 1 < run
  · rw [Nat.add_assoc, digits_used below within]
    grind
  · have full : offset + 1 = run := by omega
    by_cases next : turn_ + 1 < ranks
    · have carried : (round * ranks + turn_) * run + offset + 1 =
          (round * ranks + (turn_ + 1)) * run + 0 := by
        rw [← Nat.add_assoc (round * ranks), Nat.add_mul _ 1]
        omega
      rw [carried, digits_used next positive]
      grind
    · have last : turn_ + 1 = ranks := by omega
      have carried : (round * ranks + turn_) * run + offset + 1 = ((round + 1) * ranks + 0) * run + 0 := by
        rw [Nat.add_assoc, full, ← Nat.succ_mul, Nat.add_mul round, Nat.one_mul, ← last]
        rfl
      rw [carried, digits_used (by omega) positive, Nat.add_mul]
      grind

end VllmDcu.Striping

import Mathlib.Data.List.Sort
import Mathlib.Algebra.Order.Group.Nat

/-! Receivers dealt out to senders: each sender gets one block of them, as long as
the blocks are full, and the receivers behind the blocks go to the first senders one
by one. A receiver finds its sender from its own position. -/
namespace VllmDcu.Dispatch
open List Option

variable {Receiver : Type}

/-- The receivers of the sender at a position. -/
def share (senders : Nat) (receivers : List Receiver) (position : Nat) : List Receiver :=
  (receivers.drop (position * (receivers.length / senders))).take (receivers.length / senders) ++
    (receivers[senders * (receivers.length / senders) + position]?).toList

/-- The sender of the receiver at a position. -/
def server (senders receivers position : Nat) : Nat :=
  if position < senders * (receivers / senders) then position / (receivers / senders)
  else position - senders * (receivers / senders)

variable (senders : Nat)

theorem server_lt (receivers position : Nat) (positive : 0 < senders)
    (inside : position < receivers) : server senders receivers position < senders := by
  unfold server
  split
  · rename_i full
    exact Nat.div_lt_of_lt_mul (by rwa [Nat.mul_comm] at full)
  · have division := Nat.div_add_mod receivers senders
    have small := Nat.mod_lt receivers positive
    omega

theorem mem_share_iff (receivers : List Receiver) (position : Nat) (inside : position < senders)
    (receiver : Receiver) :
    receiver ∈ share senders receivers position ↔
      ∃ j, receivers[j]? = some receiver ∧ server senders receivers.length j = position := by
  unfold share server
  rw [mem_append, mem_toList]
  constructor
  · rintro (inBlock | behind)
    · obtain ⟨k, found⟩ := mem_iff_getElem?.mp inBlock
      rw [getElem?_take] at found
      split at found
      · rename_i short
        rw [getElem?_drop] at found
        refine ⟨_, found, ?_⟩
        have block : position * (receivers.length / senders) + k <
            senders * (receivers.length / senders) := by
          have next := Nat.mul_le_mul_right (receivers.length / senders) (Nat.succ_le_of_lt inside)
          rw [Nat.succ_mul] at next
          omega
        rw [if_pos block, Nat.mul_comm, Nat.mul_add_div (by omega), Nat.div_eq_of_lt short,
          Nat.add_zero]
      · contradiction
    · refine ⟨_, behind, ?_⟩
      rw [if_neg (by omega), Nat.add_sub_cancel_left]
  · rintro ⟨j, found, served⟩
    by_cases full : j < senders * (receivers.length / senders)
    · rw [if_pos full] at served
      left
      have positive : 0 < receivers.length / senders := by
        rcases Nat.eq_zero_or_pos (receivers.length / senders) with bare | filled
        · rw [bare, Nat.mul_zero] at full
          omega
        · exact filled
      have division := Nat.div_add_mod j (receivers.length / senders)
      have small := Nat.mod_lt j positive
      rw [served, Nat.mul_comm] at division
      apply mem_of_getElem? (i := j % (receivers.length / senders))
      rw [getElem?_take, if_pos small, getElem?_drop, division]
      exact found
    · rw [if_neg full] at served
      right
      rw [← served, Nat.add_sub_cancel' (Nat.le_of_not_lt full)]
      exact found

theorem share_nodup (receivers : List Receiver) (position : Nat) (inside : position < senders)
    (nodup : receivers.Nodup) :
    (share senders receivers position).Nodup := by
  unfold share
  rw [nodup_append]
  refine ⟨(nodup.sublist (drop_sublist _ _)).sublist (take_sublist _ _), ?_, ?_⟩
  · cases receivers[senders * (receivers.length / senders) + position]? with
    | none => exact nodup_nil
    | some receiver => exact nodup_singleton receiver
  · rintro first inBlock second behind rfl
    rw [mem_toList] at behind
    obtain ⟨k, found⟩ := mem_iff_getElem?.mp inBlock
    rw [getElem?_take] at found
    split at found
    · rename_i short
      rw [getElem?_drop] at found
      -- The same receiver would stand in a block and behind all blocks.
      have same := (nodup_iff_getElem?_ne_getElem?.mp nodup)
        (position * (receivers.length / senders) + k)
        (senders * (receivers.length / senders) + position)
      have next := Nat.mul_le_mul_right (receivers.length / senders) (Nat.succ_le_of_lt inside)
      rw [Nat.succ_mul] at next
      exact same (by omega) (List.getElem?_eq_some_iff.mp behind).1 (found.trans behind.symm)
    · contradiction

end VllmDcu.Dispatch

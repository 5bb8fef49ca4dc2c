import Mathlib.Algebra.GroupWithZero.Nat
import Mathlib.Data.List.Basic
import Mathlib.Data.Nat.Basic

/-! Byte buffers: big-endian numbers, slices, and writes in place. -/
namespace VllmDcu.ByteBuffers
open List

abbrev Bytes := List UInt8

/-- `value` in `size` bytes, the high byte first; what does not fit is cut off. -/
def toBytesBig : Nat → Nat → Bytes
  | 0, _ => []
  | size + 1, value => toBytesBig size (value / 256) ++ [UInt8.ofNat value]

def fromBytesBig (bytes : Bytes) : Nat :=
  bytes.foldl (fun value byte => 256 * value + byte.toNat) 0

def slice (data : Bytes) (start length : Nat) : Bytes := (data.drop start).take length

/-- A write of bytes from `start` on; none when they do not fit. -/
def writeAt (data : Bytes) (start : Nat) (bytes : Bytes) : Option Bytes :=
  if start + bytes.length ≤ data.length then
    some (data.take start ++ (bytes ++ data.drop (start + bytes.length)))
  else none

@[simp] theorem toBytesBig_length (size value : Nat) : (toBytesBig size value).length = size := by
  induction size generalizing value with
  | zero => rfl
  | succ size ih => rw [toBytesBig, length_append, ih, length_singleton]

theorem fromBytesBig_toBytesBig (size value : Nat) (fits : value < 256 ^ size) :
    fromBytesBig (toBytesBig size value) = value := by
  induction size generalizing value with
  | zero =>
    rw [Nat.pow_zero, Nat.lt_one_iff] at fits
    rw [fits]
    rfl
  | succ size ih =>
    have high : value / 256 < 256 ^ size := by
      rw [Nat.pow_succ] at fits
      exact Nat.div_lt_of_lt_mul (by rwa [Nat.mul_comm] at fits)
    have low : (UInt8.ofNat value).toNat = value % 256 := by simp
    have joined := ih (value / 256) high
    rw [fromBytesBig] at joined
    rw [toBytesBig, fromBytesBig, foldl_append, joined, foldl_cons, foldl_nil, low]
    exact Nat.div_add_mod value 256

/-- A slice lies in what two buffers have in common. -/
theorem slice_congr {left right : Bytes} {common start length : Nat}
    (same : left.take common = right.take common) (inside : start + length ≤ common) :
    slice left start length = slice right start length := by
  have cut (data : Bytes) : slice data start length = slice (data.take common) start length := by
    rw [slice, slice, drop_take, take_take, Nat.min_eq_left (by omega)]
  rw [cut left, cut right, same]

variable {data next : Bytes} {start : Nat} {bytes : Bytes}

section
variable (written : writeAt data start bytes = some next)
include written

theorem writeAt_length :
    next.length = data.length := by
  rw [writeAt] at written
  split at written
  · cases written
    simp only [length_append, length_take, length_drop]
    omega
  · cases written

theorem writeAt_take :
    next.take start = data.take start := by
  rw [writeAt] at written
  split at written
  · rename_i fits
    cases written
    have length : (data.take start).length = start := by
      rw [length_take]
      omega
    rw [take_append_of_le_length (by omega), take_take, Nat.min_self]
  · cases written

theorem slice_writeAt : slice next start bytes.length = bytes := by
  rw [writeAt] at written
  split at written
  · rename_i fits
    cases written
    have length : (data.take start).length = start := by
      rw [length_take]
      omega
    rw [slice, drop_append_of_le_length (by omega), drop_eq_nil_of_le (by omega),
      nil_append, take_left']
    rfl
  · cases written

end

theorem slice_writeAt_after {position : Nat} {bytes : Bytes}
    (written : writeAt data start bytes = some next) (after : start + bytes.length ≤ position)
    (length : Nat) : slice next position length = slice data position length := by
  rw [writeAt] at written
  split at written
  · rename_i fits
    cases written
    have taken : (data.take start).length = start := by
      rw [length_take]
      omega
    have prefixed : (data.take start ++ bytes).length = start + bytes.length := by
      rw [length_append, taken]
    have dropped : (data.take start ++ (bytes ++ data.drop (start + bytes.length))).drop position
        = data.drop position := by
      rw [← append_assoc, drop_append, prefixed,
        drop_eq_nil_of_le (by rw [prefixed]; exact after), nil_append, drop_drop]
      congr 1
      omega
    rw [slice, slice, dropped]
  · cases written

end VllmDcu.ByteBuffers

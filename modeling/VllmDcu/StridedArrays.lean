import VllmDcu.ByteBuffers
import Mathlib.Algebra.BigOperators.Ring.List
import Mathlib.Tactic.Ring

/-! Arrays with strides over a byte storage: the order of their elements, the
bytes they stand for, and when these lie in the storage as they are. -/
namespace VllmDcu.StridedArrays
open ByteBuffers List Function

/-- Where the elements begin, the last axis running fastest. -/
def positions : List Nat → List Int → Int → List Int
  | count :: shape, stride :: strides, start =>
    (List.range count).flatMap fun index : Nat => positions shape strides (start + (index : Int) * stride)
  | _, _, start => [start]

/-- An array of any rank whose elements all lie inside its storage. -/
structure Strided where
  itemsize : Nat
  shape : List Nat
  strides : List Int
  offset : Nat
  storage : Bytes
  ranks : strides.length = shape.length
  inside : ∀ position ∈ positions shape strides offset,
    0 ≤ position ∧ position + itemsize ≤ storage.length

namespace Strided

def nbytes (array : Strided) : Nat := array.itemsize * array.shape.prod

/-- The elements one after the other, copied out of the storage. -/
def tobytes (array : Strided) : Bytes :=
  (positions array.shape array.strides array.offset).flatMap fun position =>
    slice array.storage position.toNat array.itemsize

end Strided

/-- Each axis steps over exactly what the later axes span; one element needs no step. -/
def rowMajor (itemsize : Nat) : List Nat → List Int → Bool
  | count :: shape, stride :: strides =>
    (count == 1 || stride == (itemsize * shape.prod : Nat)) && rowMajor itemsize shape strides
  | _, _ => true

namespace Strided

def cContiguous (array : Strided) : Bool :=
  array.shape.contains 0 || rowMajor array.itemsize array.shape array.strides

/-- The stretch of storage that a contiguous array exports without a copy. -/
def exported (array : Strided) : Bytes := slice array.storage array.offset array.nbytes

end Strided

variable (data : Bytes)

theorem slice_add (start first second : Nat) :
    slice data start (first + second) = slice data start first ++ slice data (start + first) second := by
  rw [slice, slice, slice, take_add, drop_drop]

theorem slice_length {data : Bytes} {start length : Nat} (inside : start + length ≤ data.length) :
    (slice data start length).length = length := by
  rw [slice, length_take, length_drop]
  omega

theorem slice_whole : slice data 0 data.length = data := by
  rw [slice, drop_zero, take_length]

/-- Consecutive elements make up one stretch. -/
theorem slices_consecutive (start itemsize count : Nat) :
    ((List.range count).flatMap fun index => slice data (start + itemsize * index) itemsize) =
      slice data start (itemsize * count) := by
  induction count with
  | zero => rw [Nat.mul_zero, slice, take_zero, range_zero, flatMap_nil]
  | succ count ih =>
    rw [range_succ, flatMap_append, ih, flatMap_singleton, Nat.mul_succ, slice_add]

theorem range_mul (outer inner : Nat) :
    List.range (outer * inner) =
      (List.range outer).flatMap fun index => (List.range inner).map (inner * index + ·) := by
  induction outer with
  | zero => rw [Nat.zero_mul, range_zero, flatMap_nil]
  | succ outer ih =>
    rw [range_succ, flatMap_append, ← ih, flatMap_singleton, Nat.succ_mul,
      range_add, Nat.mul_comm inner outer]

theorem positions_empty {shape : List Nat} {strides : List Int} (ranks : strides.length = shape.length)
    (empty : 0 ∈ shape) (start : Int) : positions shape strides start = [] := by
  induction shape generalizing strides start with
  | nil => cases empty
  | cons count shape ih =>
    cases strides with
    | nil => cases ranks
    | cons stride strides =>
      rw [positions]
      cases mem_cons.mp empty with
      | inl first =>
        rw [← first, range_zero, flatMap_nil]
      | inr later =>
        apply flatMap_eq_nil_iff.mpr
        intro index _
        exact ih (Nat.succ.inj ranks) later _

theorem positions_length {shape : List Nat} {strides : List Int}
    (ranks : strides.length = shape.length) (start : Int) :
    (positions shape strides start).length = shape.prod := by
  induction shape generalizing strides start with
  | nil =>
    rfl
  | cons count shape ih =>
    cases strides with
    | nil => cases ranks
    | cons stride strides =>
      have inner (index : Nat) :
          (positions shape strides (start + index * stride)).length = shape.prod :=
        ih (Nat.succ.inj ranks) _
      rw [positions, length_flatMap, prod_cons]
      simp only [inner, map_const', length_range, sum_replicate, nsmul_eq_mul, Nat.cast_id]

/-- In row-major order the elements follow one another. -/
theorem positions_rowMajor {itemsize : Nat} {shape : List Nat} {strides : List Int}
    (ranks : strides.length = shape.length) (ordered : rowMajor itemsize shape strides = true)
    (start : Int) :
    positions shape strides start =
      (List.range shape.prod).map fun index => start + (itemsize * index : Nat) := by
  induction shape generalizing strides start with
  | nil =>
    simp [positions]
  | cons count shape ih =>
    cases strides with
    | nil => cases ranks
    | cons stride strides =>
      rw [rowMajor, Bool.and_eq_true, Bool.or_eq_true, beq_iff_eq, beq_iff_eq] at ordered
      rw [prod_cons, range_mul, map_flatMap]
      apply flatMap_congr
      intro index member
      rw [ih (Nat.succ.inj ranks) ordered.2, map_map]
      apply map_congr_left
      intro inner _
      have step : (index : Int) * stride = (itemsize * (shape.prod * index) : Nat) := by
        cases ordered.1 with
        | inl one =>
          rw [one, mem_range, Nat.lt_one_iff] at member
          rw [member]
          simp
        | inr spans =>
          rw [spans]
          push_cast
          ring
      rw [step, comp_apply]
      push_cast
      ring

namespace Strided

variable (array : Strided)

theorem tobytes_length : array.tobytes.length = array.nbytes := by
  have each : ∀ position ∈ positions array.shape array.strides array.offset,
      (slice array.storage position.toNat array.itemsize).length = array.itemsize := by
    intro position member
    have bounds := array.inside position member
    exact slice_length (by omega)
  rw [tobytes, length_flatMap, map_congr_left each, map_const', sum_replicate,
    positions_length array.ranks, nsmul_eq_mul, Nat.cast_id, nbytes, Nat.mul_comm]

/-- A contiguous array exports its elements in their order. -/
theorem exported_eq_tobytes (contiguous : array.cContiguous = true) :
    array.exported = array.tobytes := by
  rw [cContiguous, Bool.or_eq_true] at contiguous
  cases contiguous with
  | inl empty =>
    have zero : 0 ∈ array.shape := contains_iff_mem.mp empty
    rw [exported, tobytes, positions_empty array.ranks zero, nbytes, prod_eq_zero zero]
    rw [Nat.mul_zero, slice, take_zero, flatMap_nil]
  | inr ordered =>
    rw [exported, tobytes, positions_rowMajor array.ranks ordered, flatMap_map, nbytes,
      ← slices_consecutive]
    apply flatMap_congr
    intro index _
    rw [← Nat.cast_add, Int.toNat_natCast]

end Strided

/-- The strides of an array laid out in row-major order. -/
def rowStrides (itemsize : Nat) : List Nat → List Int
  | [] => []
  | _ :: shape => (itemsize * shape.prod : Nat) :: rowStrides itemsize shape

variable (itemsize : Nat)

theorem rowStrides_length (shape : List Nat) :
    (rowStrides itemsize shape).length = shape.length := by
  induction shape with
  | nil => rfl
  | cons _ shape ih => rw [rowStrides, length_cons, ih, length_cons]

theorem rowMajor_rowStrides (shape : List Nat) :
    rowMajor itemsize shape (rowStrides itemsize shape) = true := by
  induction shape with
  | nil => rfl
  | cons _ shape ih => rw [rowStrides, rowMajor, ih, beq_self_eq_true, Bool.or_true, Bool.and_self]

/-- A fresh array over the bytes of its elements. -/
def ofBytes (itemsize : Nat) (shape : List Nat) (bytes : Bytes)
    (fits : bytes.length = itemsize * shape.prod) : Strided where
  itemsize := itemsize
  shape := shape
  strides := rowStrides itemsize shape
  offset := 0
  storage := bytes
  ranks := rowStrides_length itemsize shape
  inside := by
    rw [positions_rowMajor (rowStrides_length itemsize shape) (rowMajor_rowStrides itemsize shape)]
    intro position member
    obtain ⟨index, below, rfl⟩ := List.mem_map.mp member
    have next := Nat.mul_le_mul_left itemsize (List.mem_range.mp below)
    rw [Nat.mul_succ] at next
    rw [fits]
    generalize itemsize * index = first at next ⊢
    generalize itemsize * shape.prod = total at next ⊢
    omega

theorem ofBytes_tobytes (shape : List Nat) (bytes : Bytes)
    (fits : bytes.length = itemsize * shape.prod) :
    (ofBytes itemsize shape bytes fits).tobytes = bytes := by
  have ordered : (ofBytes itemsize shape bytes fits).cContiguous = true := by
    exact Bool.or_eq_true_iff.mpr (Or.inr (rowMajor_rowStrides itemsize shape))
  rw [← Strided.exported_eq_tobytes _ ordered]
  change slice bytes 0 (itemsize * shape.prod) = bytes
  rw [← fits, slice_whole]

namespace Strided

/-- The same elements under the same shape, laid out afresh. -/
def packed (array : Strided) : Strided :=
  ofBytes array.itemsize array.shape array.tobytes array.tobytes_length

variable (array : Strided)

@[simp] theorem packed_itemsize : array.packed.itemsize = array.itemsize := rfl

@[simp] theorem packed_shape : array.packed.shape = array.shape := rfl

@[simp] theorem packed_tobytes : array.packed.tobytes = array.tobytes := ofBytes_tobytes ..

end Strided

end VllmDcu.StridedArrays

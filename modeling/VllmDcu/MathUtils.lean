import Mathlib.Algebra.Order.Group.Int
import Mathlib.Data.Int.Basic

/-! Integer arithmetic of `vllm.utils.math_utils`. -/
namespace VllmDcu.MathUtils

/-- `-(a // -b)`: division rounded up. -/
def cdiv (a : Int) (b : Nat) : Int := -((-a) / b)

theorem cdiv_le_iff {a k : Int} {b : Nat} (positive : 0 < b) : cdiv a b ≤ k ↔ a ≤ k * b := by
  have pos : (0 : Int) < b := Int.natCast_pos.mpr positive
  have flip : cdiv a b ≤ k ↔ -k ≤ -a / b := by
    unfold cdiv
    omega
  rw [flip, Int.le_ediv_iff_mul_le pos, Int.neg_mul]
  omega

theorem lt_cdiv_iff (a k : Int) {b : Nat} (positive : 0 < b) : k < cdiv a b ↔ k * b < a := by
  rw [← Int.not_le, cdiv_le_iff positive, Int.not_le]

end VllmDcu.MathUtils

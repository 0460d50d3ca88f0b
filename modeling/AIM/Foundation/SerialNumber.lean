import Mathlib.Algebra.Order.Ring.Int
import Mathlib.Algebra.Order.Group.Unbundled.Abs

namespace AIM.SerialNumber

/-! # Cyclic counters

Values that are only known modulo a bound can be ordered when the true values are
closer than half the bound: a larger gap means that the counter has wrapped. -/

/-- The test for an older value: a value that is ahead by more than the window, or
behind by less. -/
def Older (window received stored : Int) : Prop :=
  (stored < received ∧ window < received - stored) ∨
    (received < stored ∧ -window < received - stored)

theorem quotient_difference {modulus window received stored : Int} (positive : 0 < modulus)
    (room : 2 * window ≤ modulus) (close : |received - stored| < window) :
    ∃ wraps, (wraps = -1 ∨ wraps = 0 ∨ wraps = 1) ∧
      received - stored = modulus * wraps + (received % modulus - stored % modulus) := by
  have receivedBound := Int.emod_lt_of_pos received positive
  have storedBound := Int.emod_lt_of_pos stored positive
  have receivedNonneg := Int.emod_nonneg received (Int.ne_of_gt positive)
  have storedNonneg := Int.emod_nonneg stored (Int.ne_of_gt positive)
  have difference : received - stored =
      modulus * (received / modulus - stored / modulus) +
        (received % modulus - stored % modulus) := by
    have receivedSplit := Int.mul_ediv_add_emod received modulus
    have storedSplit := Int.mul_ediv_add_emod stored modulus
    rw [mul_sub]
    omega
  rcases abs_lt.mp close with ⟨behind, ahead⟩
  refine ⟨received / modulus - stored / modulus, ?_, difference⟩
  generalize received / modulus - stored / modulus = wraps at difference
  have notBelow : ¬wraps ≤ -2 := by
    intro low
    have product : modulus * wraps ≤ modulus * -2 :=
      Int.mul_le_mul_of_nonneg_left low positive.le
    omega
  have notAbove : ¬2 ≤ wraps := by
    intro high
    have product : modulus * 2 ≤ modulus * wraps :=
      Int.mul_le_mul_of_nonneg_left high positive.le
    omega
  omega

/-- On values that are close the test decides the order of the true values. -/
theorem older_emod_iff {modulus window received stored : Int} (positive : 0 < modulus)
    (room : 2 * window ≤ modulus) (close : |received - stored| < window) :
    Older window (received % modulus) (stored % modulus) ↔ received < stored := by
  rcases quotient_difference positive room close with ⟨wraps, cases, difference⟩
  rcases abs_lt.mp close with ⟨behind, ahead⟩
  have receivedBound := Int.emod_lt_of_pos received positive
  have storedBound := Int.emod_lt_of_pos stored positive
  have receivedNonneg := Int.emod_nonneg received (Int.ne_of_gt positive)
  have storedNonneg := Int.emod_nonneg stored (Int.ne_of_gt positive)
  unfold Older
  rcases cases with rfl | rfl | rfl <;>
    simp only [mul_neg, mul_one, mul_zero] at difference <;> omega

end AIM.SerialNumber

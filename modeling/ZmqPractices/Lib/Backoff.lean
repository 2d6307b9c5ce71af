import Mathlib.Algebra.Order.GroupWithZero.Basic
import Mathlib.Algebra.Order.Ring.Int

/-!
Delays that are doubled while they are less than a maximum.

The test comes before the doubling. `double_min` says when the doubled delay is still
capped; `double_min_pow` that it always is where the maximum is itself reached by doubling.
-/

namespace ZmqPractices.Lib

/-- Doubling a delay below the maximum stays capped exactly when the delay was at most
half of it. -/
theorem double_min {delay : Int} (maximum : Int) (positive : 1 ≤ delay) :
    ((if min delay maximum < maximum then min delay maximum * 2 else min delay maximum) ≤ maximum ↔
        delay * 2 ≤ maximum ∨ maximum ≤ delay) ∧
      (delay * 2 ≤ maximum ∨ maximum ≤ delay →
        (if min delay maximum < maximum then min delay maximum * 2 else min delay maximum) =
          min (delay * 2) maximum) := by
  split <;> omega

theorem mul_two_pow_le {init : Int} (positive : 1 ≤ init) {m n : Nat} (le : m ≤ n) :
    init * 2 ^ m ≤ init * 2 ^ n :=
  Int.mul_le_mul_of_nonneg_left (pow_le_pow_right₀ (by decide) le) (by omega)

/-- Where `k` doublings of the first delay give the maximum, one more doubling of a capped
delay is a capped delay. -/
theorem double_min_pow {init : Int} (positive : 1 ≤ init) (k n : Nat) :
    (if min (init * 2 ^ n) (init * 2 ^ k) < init * 2 ^ k then min (init * 2 ^ n) (init * 2 ^ k) * 2
      else min (init * 2 ^ n) (init * 2 ^ k)) = min (init * 2 ^ (n + 1)) (init * 2 ^ k) := by
  have delay : 1 ≤ init * 2 ^ n := Int.mul_pos positive (Int.pow_pos (by decide))
  have next : init * 2 ^ n * 2 = init * 2 ^ (n + 1) := by rw [pow_succ, Int.mul_assoc]
  rw [← next]
  refine (double_min (init * 2 ^ k) delay).2 ?_
  rcases Nat.lt_or_ge n k with less | reached
  · exact .inl (next ▸ mul_two_pow_le positive less)
  · exact .inr (mul_two_pow_le positive reached)

end ZmqPractices.Lib

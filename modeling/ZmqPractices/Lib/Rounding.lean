import Mathlib.Data.Nat.Log
import Mathlib.Tactic.Ring

/-!
Natural numbers in binary floating point.

A format with `p` significant bits has the multiples of `2 ^ dropped p n` around `n`, and
`nearest` rounds to one of them, to an even one from halfway. Numbers of at most `p` bits
are exact, and the error is at most half of a step, which is small beside the number
(`nearest_le`, `step_mul_le`).
-/

namespace ZmqPractices.Lib

/-- The number of low bits of `n` that `p` significant bits have no room for. -/
def dropped (p n : Nat) : Nat := n.log2 + 1 - p

/-- `n` in `p` significant bits, rounded to nearest, ties to even. -/
def nearest (p n : Nat) : Nat :=
  let step := 2 ^ dropped p n
  if 2 * (n % step) < step ∨ 2 * (n % step) = step ∧ n / step % 2 = 0 then n / step * step
  else (n / step + 1) * step

section

variable {p n : Nat}

/-- Where the dropped bits are zero, nothing is rounded. -/
theorem nearest_of_mod (whole : n % 2 ^ dropped p n = 0) : nearest p n = n := by
  have exact_step := Nat.div_mul_cancel (Nat.dvd_of_mod_eq_zero whole)
  rw [nearest, if_pos (.inl (by rw [whole]; exact Nat.two_pow_pos _)), exact_step]

/-- A number of `p` bits is exact, and so are its products with the powers of two. -/
theorem nearest_mul_pow (short : n < 2 ^ p) (k : Nat) :
    nearest p (n * 2 ^ k) = n * 2 ^ k := by
  apply nearest_of_mod
  by_cases zero : n = 0
  · rw [zero, Nat.zero_mul, Nat.zero_mod]
  · have bits : n.log2 < p := (Nat.log2_lt zero).mpr short
    have below : (n * 2 ^ k).log2 < p + k := by
      refine (Nat.log2_lt (Nat.mul_ne_zero zero (Nat.two_pow_pos k).ne')).mpr ?_
      rw [pow_add]
      exact Nat.mul_lt_mul_of_pos_right short (Nat.two_pow_pos k)
    have few : dropped p (n * 2 ^ k) ≤ k := by
      rw [dropped]
      omega
    exact Nat.mod_eq_zero_of_dvd (Dvd.dvd.mul_left (pow_dvd_pow 2 few) n)

theorem nearest_of_lt (short : n < 2 ^ p) : nearest p n = n := by
  have exact_one := nearest_mul_pow short 0
  rwa [pow_zero, Nat.mul_one] at exact_one

/-- Rounding goes up by half a step at most. -/
theorem nearest_le (p n : Nat) : 2 * nearest p n ≤ 2 * n + 2 ^ dropped p n := by
  have split := Nat.div_add_mod n (2 ^ dropped p n)
  have comm : 2 ^ dropped p n * (n / 2 ^ dropped p n) = n / 2 ^ dropped p n * 2 ^ dropped p n :=
    Nat.mul_comm ..
  rw [nearest]
  split_ifs with down
  · omega
  · have half : 2 ^ dropped p n ≤ 2 * (n % 2 ^ dropped p n) := by
      by_contra small
      exact down (.inl (not_le.mp small))
    rw [Nat.add_mul, Nat.one_mul]
    omega

/-- A step is to a number as one is to its significant bits. -/
theorem step_mul_le (fits : p ≤ n.log2 + 1) (pos : n ≠ 0) : 2 ^ dropped p n * 2 ^ p ≤ 2 * n := by
  have whole : dropped p n + p = n.log2 + 1 := Nat.sub_add_cancel fits
  rw [← pow_add, whole, pow_succ, Nat.mul_comm]
  exact Nat.mul_le_mul_left 2 (Nat.log2_self_le pos)

/-- A number that is too short for a step is exact. -/
theorem step_eq_one (short : n.log2 + 1 ≤ p) : 2 ^ dropped p n = 1 := by
  rw [dropped, Nat.sub_eq_zero_of_le short, pow_zero]

end

end ZmqPractices.Lib

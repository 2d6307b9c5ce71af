import ZmqPractices.Czmq.Message
import ZmqPractices.Lib.Printed
import ZmqPractices.Lib.Rounding

/-!
Random numbers and identities (`randof` and `s_set_id` in `zhelpers.h`).

`randof` multiplies in `float`, where the largest results of `random` are rounded up to
`RAND_MAX + 1.0`. For these it gives the number that it is meant to stay below, and an
identity that is made of it overruns its buffer.
-/

namespace ZmqPractices.Zhelpers

open Czmq Lib

/-- `random` gives a number up to `RAND_MAX`, which is one less. -/
def randMax : Nat := 2 ^ 31

/-- `(int) ((float) (num) * random () / (RAND_MAX + 1.0))`: the product of two `float`s, then
an exact division in `double`, then the whole part. -/
def randof (num random : Nat) : Nat :=
  nearest 24 (nearest 24 num * nearest 24 random) / randMax

/-- `%X` in place of `%x`. -/
def upper (digit : UInt8) : UInt8 :=
  if 0x61 ≤ digit ∧ digit ≤ 0x66 then digit - 0x20 else digit

/-- `sprintf (identity, "%04X-%04X", randof (0x10000), randof (0x10000))`, and the identity
that the socket gets; `identity` has ten bytes. -/
def sSetId (random random' : Nat) : Option Frame :=
  let identity := (padded 4 16 (randof 0x10000 random)).map upper ++
    0x2d :: (padded 4 16 (randof 0x10000 random')).map upper
  if identity.length < 10 then some identity else none

section

variable {num random : Nat}

/-- Numbers from `2 ^ 30` on are multiples of 128 in `float`. -/
theorem nearest_drawn (large : 2 ^ 30 ≤ random) (drawn : random < randMax) :
    nearest 24 random =
      if 2 * (random % 128) < 128 ∨ 2 * (random % 128) = 128 ∧ random / 128 % 2 = 0 then
        random / 128 * 128
      else (random / 128 + 1) * 128 := by
  have pos : random ≠ 0 := by omega
  have bits : random.log2 = 30 := (Nat.log2_eq_iff pos).mpr ⟨large, drawn⟩
  have step : 2 ^ dropped 24 random = 128 := by
    rw [dropped, bits]
    rfl
  rw [nearest, step]

/-- The last 64 results of `random` are rounded up to `RAND_MAX + 1.0`. -/
theorem nearest_drawn_top (top : randMax - 64 ≤ random) (drawn : random < randMax) :
    nearest 24 random = randMax := by
  unfold randMax at top drawn
  rw [nearest_drawn (by omega) drawn, randMax]
  split_ifs with down
  · omega
  · omega

/-- The others stay 128 below. -/
theorem nearest_drawn_le (below : random < randMax - 64) :
    nearest 24 random ≤ randMax - 128 := by
  unfold randMax at below ⊢
  by_cases large : 2 ^ 30 ≤ random
  · rw [nearest_drawn large (by rw [randMax]; omega)]
    split_ifs with down
    · omega
    · omega
  · have error := nearest_le 24 random
    have step : 2 ^ dropped 24 random ≤ 2 ^ 6 := by
      apply Nat.pow_le_pow_right (by decide)
      have bits : random.log2 < 30 ∨ random = 0 := by
        by_cases zero : random = 0
        · exact .inr zero
        · exact .inl ((Nat.log2_lt zero).mpr (not_le.mp large))
      rw [dropped]
      rcases bits with bits | rfl
      · omega
      · rw [Nat.log2_zero]
        omega
    omega

/-- Below the last results, the product stays below `num` times `RAND_MAX + 1.0`. -/
theorem nearest_mul_lt {drawn : Nat} (pos : 0 < num) (below : drawn ≤ randMax - 128) :
    nearest 24 (num * drawn) < num * randMax := by
  have error := nearest_le 24 (num * drawn)
  have gap : num * drawn + num * 128 ≤ num * randMax := by
    rw [← Nat.mul_add]
    exact Nat.mul_le_mul_left num (by unfold randMax at *; omega)
  have step : 2 ^ dropped 24 (num * drawn) < num * 256 := by
    by_cases fits : 24 ≤ (num * drawn).log2 + 1
    · have zero : num * drawn ≠ 0 := by
        intro zero
        rw [zero, Nat.log2_zero] at fits
        omega
      have small := step_mul_le fits zero
      have pos' : 0 < num * randMax := Nat.mul_pos pos (by decide)
      unfold randMax at gap
      omega
    · rw [step_eq_one (by omega)]
      omega
  omega

/-- `randof` stays below its bound but for the last 64 results of `random`: for these it gives
the bound. -/
theorem randof_lt_iff (pos : 0 < num) (short : num < 2 ^ 24) (drawn : random < randMax) :
    (randof num random < num ↔ random < randMax - 64) ∧
      (randMax - 64 ≤ random → randof num random = num) := by
  by_cases below : random < randMax - 64
  · have less := nearest_mul_lt pos (nearest_drawn_le below)
    have value : randof num random < num := by
      rw [randof, nearest_of_lt short]
      exact Nat.div_lt_of_lt_mul (Nat.mul_comm num randMax ▸ less)
    exact ⟨iff_of_true value below, fun top => absurd below (not_lt.mpr top)⟩
  · have value : randof num random = num := by
      rw [randof, nearest_of_lt short, nearest_drawn_top (not_lt.mp below) drawn,
        randMax, nearest_mul_pow short, Nat.mul_div_cancel _ (by decide)]
    exact ⟨iff_of_false (by rw [value]; exact Nat.lt_irrefl _) below, fun _ => value⟩

/-- Below its bound `randof` needs four digits, and five for the bound. -/
theorem length_digits (drawn : random < randMax) :
    ((padded 4 16 (randof 0x10000 random)).map upper).length =
      if random < randMax - 64 then 4 else 5 := by
  have range : (randof 0x10000 random < 0x10000 ↔ random < randMax - 64) ∧
      (randMax - 64 ≤ random → randof 0x10000 random = 0x10000) :=
    randof_lt_iff (by decide) (by decide) drawn
  have four := length_printed_le_iff (n := randof 0x10000 random) (k := 4) (by decide : 1 < 16)
    (by decide)
  have five := length_printed_le_iff (n := randof 0x10000 random) (k := 5) (by decide : 1 < 16)
    (by decide)
  rw [List.length_map, length_padded]
  split
  · rename_i below
    exact max_eq_left (four.mpr (range.1.mpr below))
  · rename_i top
    have more : ¬ (printed 16 (randof 0x10000 random)).length ≤ 4 := fun fits =>
      top (range.1.mp (four.mp fits))
    have most : (printed 16 (randof 0x10000 random)).length ≤ 5 :=
      five.mpr (by rw [range.2 (not_lt.mp top)]; decide)
    omega

theorem upper_ne_zero {digit : UInt8} (hex : digit = 0x30 ∨ IsHexDigit digit) :
    upper digit ≠ 0 := by
  intro zero
  unfold upper at zero
  split at zero
  · rename_i letter
    have above : (0x20 : UInt8) ≤ digit := UInt8.le_trans (by decide) letter.1
    have value := congrArg UInt8.toNat zero
    rw [UInt8.toNat_sub_of_le _ _ above] at value
    have least : 0x61 ≤ digit.toNat := UInt8.le_iff_toNat_le.mp letter.1
    exact absurd value (Nat.sub_ne_zero_of_lt (Nat.lt_of_lt_of_le (by decide) least))
  · rw [zero] at hex
    exact absurd hex (by decide)

theorem nulFree_digits (n : Nat) : NulFree ((padded 4 16 n).map upper) := by
  intro mem
  obtain ⟨digit, inside, zero⟩ := List.mem_map.mp mem
  exact upper_ne_zero ((mem_padded inside).imp_right isHexDigit_of_mem_printed) zero

end

/-- **A random number stays below its bound**, which is below `2 ^ 24`, but for the last 64
results of `random`, for which it is the bound. **An identity fits its buffer** exactly when
neither of its two numbers comes from one of these. Then it has nine bytes and none of them is
NUL, so that the socket gets all of it, as no reserved identity. -/
theorem sSetId_fits_iff {random random' : Nat} (drawn : random < randMax)
    (drawn' : random' < randMax) :
    (∀ num, 0 < num → num < 2 ^ 24 → (randof num random < num ↔ random < randMax - 64) ∧
      (randMax - 64 ≤ random → randof num random = num)) ∧
    ((∃ identity, sSetId random random' = some identity) ↔
      random < randMax - 64 ∧ random' < randMax - 64) ∧
    ∀ identity, sSetId random random' = some identity →
      identity.length = 9 ∧ NulFree identity := by
  have first := length_digits drawn
  have second := length_digits drawn'
  have length : ((padded 4 16 (randof 0x10000 random)).map upper ++
      0x2d :: (padded 4 16 (randof 0x10000 random')).map upper).length =
        (if random < randMax - 64 then 4 else 5) +
          ((if random' < randMax - 64 then 4 else 5) + 1) := by
    rw [List.length_append, List.length_cons, first, second]
  refine ⟨fun num pos short => randof_lt_iff pos short drawn, ⟨?_, ?_⟩, ?_⟩
  · rintro ⟨identity, written⟩
    have fits := (Option.ite_none_right_eq_some.mp written).1
    rw [length] at fits
    constructor
    · by_contra top
      rw [if_neg top] at fits
      split at fits <;> omega
    · by_contra top
      rw [if_neg top] at fits
      split at fits <;> omega
  · rintro ⟨below, below'⟩
    refine ⟨_, if_pos ?_⟩
    rw [length, if_pos below, if_pos below']
    decide
  · intro identity written
    obtain ⟨fits, same⟩ := Option.ite_none_right_eq_some.mp written
    obtain rfl := Option.some.inj same
    constructor
    · rw [length] at fits ⊢
      split_ifs at fits ⊢ <;> omega
    · intro mem
      rcases List.mem_append.mp mem with mem | mem
      · exact nulFree_digits _ mem
      · rcases List.mem_cons.mp mem with zero | mem
        · exact absurd zero (by decide)
        · exact nulFree_digits _ mem

/-- The last result for which a number stays below its bound and an identity fits, and the
first for which they do not. -/
theorem sSetId_fits_iff_last :
    (randof 5 (2 ^ 31 - 65) < 5 ∧
        ∃ identity, sSetId (2 ^ 31 - 65) 0 = some identity ∧ identity.length = 9) ∧
      randof 5 (2 ^ 31 - 64) = 5 ∧ ¬ ∃ identity, sSetId (2 ^ 31 - 64) 0 = some identity := by
  have least : 0 < randMax := by decide
  have last : 2 ^ 31 - 65 < randMax := by decide
  have next : 2 ^ 31 - 64 < randMax := by decide
  obtain ⟨below, fits, texts⟩ := sSetId_fits_iff last least
  obtain ⟨bound, overrun, -⟩ := sSetId_fits_iff next least
  refine ⟨⟨?_, ?_⟩, ?_, ?_⟩
  · exact (below 5 (by decide) (by decide)).1.mpr (by decide)
  · obtain ⟨identity, written⟩ := fits.mpr (by decide)
    exact ⟨identity, written, (texts identity written).1⟩
  · exact (bound 5 (by decide) (by decide)).2 (by decide)
  · exact fun written => absurd (overrun.mp written) (by decide)

end ZmqPractices.Zhelpers

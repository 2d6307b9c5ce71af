import Mathlib.Data.List.TakeWhile
import ZmqPractices.Lib.Decimal

/-!
Numbers as `printf` writes them, `%d` and `%x` and both padded with zeros, and as `atoi` reads
them.

Every byte of a printed number is a digit of its base (`isDigit_of_mem_printed`). In base
ten it is read back by `decimal`, padded or not, and by `atoi` (`atoi_printed`), so the text
determines the number, also where other text follows it behind a byte that is no digit
(`padded_append_injective`).
-/

namespace ZmqPractices.Lib

/-- `%d` and `%x`: the digits of a number in its base. -/
def printed (base n : Nat) : List UInt8 := (Nat.toDigits base n).map fun c => UInt8.ofNat c.toNat

/-- `%0` and a width: zeros in front of the digits. -/
def padded (width base n : Nat) : List UInt8 := (printed base n).leftpad width 0x30

/-! ### Digits -/

theorem digitChar_of_mem_toDigits {base : Nat} (two : 1 < base) (n : Nat) :
    ∀ c ∈ Nat.toDigits base n, ∃ d < base, c = Nat.digitChar d := by
  induction n using Nat.strongRecOn with
  | ind n ih =>
      intro c mem
      rw [Nat.toDigits_eq_if two] at mem
      split at mem
      · rename_i small
        exact ⟨n, small, List.mem_singleton.mp mem⟩
      · rename_i large
        rcases List.mem_append.mp mem with mem | mem
        · exact ih (n / base) (Nat.div_lt_self (by omega) two) c mem
        · exact ⟨n % base, Nat.mod_lt n (by omega), List.mem_singleton.mp mem⟩

/-- The bytes that printing uses in base sixteen: `0` to `9`, and `a` to `f`. -/
def IsHexDigit (byte : UInt8) : Prop :=
  IsDigit byte ∨ 0x61 ≤ byte.toNat ∧ byte.toNat ≤ 0x66

instance (byte : UInt8) : Decidable (IsHexDigit byte) := inferInstanceAs (Decidable (_ ∨ _))

theorem isHexDigit_digitChar {d : Nat} (lt : d < 16) :
    IsHexDigit (UInt8.ofNat (Nat.digitChar d).toNat) := by
  revert d
  decide

theorem isDigit_digitChar {d : Nat} (lt : d < 10) :
    IsDigit (UInt8.ofNat (Nat.digitChar d).toNat) := by
  revert d
  decide

theorem digitValue_digitChar {d : Nat} (lt : d < 10) :
    digitValue (UInt8.ofNat (Nat.digitChar d).toNat) = d := by
  revert d
  decide

theorem isHexDigit_of_mem_printed {n : Nat} {byte : UInt8} (mem : byte ∈ printed 16 n) :
    IsHexDigit byte := by
  obtain ⟨c, inside, rfl⟩ := List.mem_map.mp mem
  obtain ⟨d, lt, rfl⟩ := digitChar_of_mem_toDigits (by decide) n c inside
  exact isHexDigit_digitChar lt

theorem isDigit_of_mem_printed {n : Nat} {byte : UInt8} (mem : byte ∈ printed 10 n) :
    IsDigit byte := by
  obtain ⟨c, inside, rfl⟩ := List.mem_map.mp mem
  obtain ⟨d, lt, rfl⟩ := digitChar_of_mem_toDigits (by decide) n c inside
  exact isDigit_digitChar lt

/-- A number has no NUL in it. -/
theorem zero_not_mem_printed (n : Nat) : (0 : UInt8) ∉ printed 10 n :=
  fun mem => absurd (isDigit_of_mem_printed mem) (by decide)

theorem mem_padded {width base n : Nat} {byte : UInt8} (mem : byte ∈ padded width base n) :
    byte = 0x30 ∨ byte ∈ printed base n := by
  rcases List.mem_append.mp mem with zero | digit
  · exact .inl (List.eq_of_mem_replicate zero)
  · exact .inr digit

theorem isDigit_of_mem_padded {width n : Nat} {byte : UInt8} (mem : byte ∈ padded width 10 n) :
    IsDigit byte := by
  rcases mem_padded mem with rfl | digit
  · decide
  · exact isDigit_of_mem_printed digit

/-! ### Lengths -/

theorem length_printed_pos (base n : Nat) : 0 < (printed base n).length := by
  rw [printed, List.length_map]
  exact Nat.length_toDigits_pos

theorem length_printed_le_iff {base n k : Nat} (two : 1 < base) (pos : 0 < k) :
    (printed base n).length ≤ k ↔ n < base ^ k := by
  rw [printed, List.length_map]
  exact Nat.length_toDigits_le_iff two pos

theorem length_padded (width base n : Nat) :
    (padded width base n).length = max width (printed base n).length :=
  List.length_leftpad ..

/-! ### Reading a number back -/

/-- A digit behind the others is the last one. -/
theorem decimal_concat (digits : List UInt8) (digit : UInt8) :
    decimal (digits ++ [digit]) = digitValue digit + 10 * decimal digits := by
  rw [decimal, List.foldl_append]
  rfl

theorem decimal_printed (n : Nat) : decimal (printed 10 n) = n := by
  induction n using Nat.strongRecOn with
  | ind n ih =>
      rw [printed, Nat.toDigits_eq_if (by decide)]
      split
      · rename_i small
        exact (Nat.add_zero _).trans (digitValue_digitChar small)
      · rename_i large
        have before : decimal (printed 10 (n / 10)) = n / 10 :=
          ih (n / 10) (Nat.div_lt_self (by omega) (by decide))
        rw [List.map_append, List.map_singleton, decimal_concat,
          digitValue_digitChar (Nat.mod_lt n (by decide)), ← printed, before]
        omega

theorem decimal_replicate_append (k : Nat) (digits : List UInt8) :
    decimal (List.replicate k 0x30 ++ digits) = decimal digits := by
  induction k with
  | zero => rfl
  | succ k ih => rw [List.replicate_succ, List.cons_append, decimal_zero_cons, ih]

/-- What is printed in base ten is read back, with zeros in front or without. -/
theorem decimal_padded (width n : Nat) : decimal (padded width 10 n) = n :=
  (decimal_replicate_append _ _).trans (decimal_printed n)

/-- A printed number ends where a byte is no digit, so two texts that are the same begin
with the same number. -/
theorem padded_append_injective {width n n' : Nat} {stop : UInt8} {rest rest' : List UInt8}
    (not_digit : ¬ IsDigit stop)
    (same : padded width 10 n ++ stop :: rest = padded width 10 n' ++ stop :: rest') :
    n = n' ∧ rest = rest' := by
  have digits : ∀ m : Nat, stop ∉ padded width 10 m := fun m mem =>
    not_digit (isDigit_of_mem_padded mem)
  have number : ∀ (m : Nat) (more : List UInt8),
      (padded width 10 m ++ stop :: more).takeWhile (· ≠ stop) = padded width 10 m := by
    intro m more
    rw [List.takeWhile_append_of_pos, List.takeWhile_cons_of_neg (by simp), List.append_nil]
    intro byte mem
    have other : byte ≠ stop := fun eq => digits m (eq ▸ mem)
    simpa using other
  have numbers : padded width 10 n = padded width 10 n' := by
    rw [← number n rest, same, number n' rest']
  refine ⟨?_, ?_⟩
  · rw [← decimal_padded width n, numbers, decimal_padded]
  · rw [numbers] at same
    exact (List.cons.inj (List.append_cancel_left same)).2

/-! ### `atoi` -/

/-- `isspace`. -/
def isSpace (byte : UInt8) : Bool := byte == 0x20 || (0x09 ≤ byte && byte ≤ 0x0d)

/-- The number that the leading digits stand for. -/
def leadingValue (string : List UInt8) : Int :=
  decimal (string.takeWhile fun byte => IsDigit byte)

/-- `atoi`: white space, a sign, and the digits up to the first other byte. -/
def atoi (string : List UInt8) : Int :=
  match string.dropWhile isSpace with
  | 0x2d :: digits => -leadingValue digits
  | 0x2b :: digits => leadingValue digits
  | digits => leadingValue digits

/-- A number is read as it was written. -/
theorem atoi_printed (n : Nat) : atoi (printed 10 n) = n := by
  have digit : ∀ byte ∈ printed 10 n, IsDigit byte := fun _ mem => isDigit_of_mem_printed mem
  obtain ⟨first, rest, text⟩ := List.exists_cons_of_length_pos (length_printed_pos 10 n)
  have leading : IsDigit first := digit first (text ▸ List.mem_cons_self)
  have black : isSpace first = false := by
    unfold IsDigit at leading
    simp only [isSpace, Bool.or_eq_false_iff, beq_eq_false_iff_ne, Bool.and_eq_false_iff,
      decide_eq_false_iff_not, UInt8.le_iff_toNat_le, ne_eq, ← UInt8.toNat_inj]
    exact ⟨by simp; omega, .inr (by simp; omega)⟩
  have value : leadingValue (printed 10 n) = n := by
    rw [leadingValue, List.takeWhile_eq_self_iff.mpr (by simpa using digit), decimal_printed]
  rw [atoi, text, List.dropWhile_cons_of_neg (by simp [black])]
  split
  · rename_i sign
    obtain rfl := (List.cons.inj sign).1
    exact absurd leading (by decide)
  · rename_i sign
    obtain rfl := (List.cons.inj sign).1
    exact absurd leading (by decide)
  · exact text ▸ value

end ZmqPractices.Lib

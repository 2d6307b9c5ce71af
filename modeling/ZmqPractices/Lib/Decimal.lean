import Mathlib.Data.List.Basic
import Mathlib.Data.Nat.Digits.Defs

/-!
Decimal numerals as strings of ASCII digits.

`decimal` reads any string of digits, leading zeros or not; on `Numeral`s, which have none,
it is injective (`decimal_injective`).
-/

namespace ZmqPractices.Lib

def IsDigit (byte : UInt8) : Prop := 0x30 ≤ byte.toNat ∧ byte.toNat ≤ 0x39

instance (byte : UInt8) : Decidable (IsDigit byte) := inferInstanceAs (Decidable (_ ∧ _))

instance (digits : List UInt8) : Decidable (∀ byte ∈ digits, IsDigit byte) :=
  List.decidableBAll IsDigit digits

def digitValue (byte : UInt8) : Nat := byte.toNat - 0x30

/-- The value of a string of digits, read from the left. -/
def decimal (digits : List UInt8) : Nat :=
  digits.foldl (fun value byte => digitValue byte + 10 * value) 0

/-- At least one digit, and no leading zero but in `0` itself. -/
structure Numeral (digits : List UInt8) : Prop where
  nonempty : digits ≠ []
  digit : ∀ byte ∈ digits, IsDigit byte
  canonical : digits.head? = some 0x30 → digits = [0x30]

theorem digitValue_injective {a b : UInt8} (ha : IsDigit a) (hb : IsDigit b)
    (same : digitValue a = digitValue b) : a = b := by
  refine UInt8.toNat_inj.mp ?_
  unfold IsDigit digitValue at *
  omega

theorem decimal_eq_ofDigits (digits : List UInt8) :
    decimal digits = Nat.ofDigits 10 (digits.reverse.map digitValue) := by
  rw [Nat.ofDigits_eq_foldr, List.foldr_map, List.foldr_reverse]
  rfl

/-- A leading zero does not count. -/
theorem decimal_zero_cons (digits : List UInt8) : decimal (0x30 :: digits) = decimal digits := rfl

/-- A string that starts with another digit is what the digits of its value spell. -/
theorem digits_decimal {digits : List UInt8} (digit : ∀ byte ∈ digits, IsDigit byte)
    (leading : digits.head? ≠ some 0x30) :
    Nat.digits 10 (decimal digits) = digits.reverse.map digitValue := by
  rw [decimal_eq_ofDigits]
  refine Nat.digits_ofDigits 10 (by decide) _ (fun value mem => ?_) fun some_digit => ?_
  · obtain ⟨byte, inside, rfl⟩ := List.mem_map.mp mem
    have range := digit byte (List.mem_reverse.mp inside)
    unfold IsDigit digitValue at *
    omega
  · cases digits with
    | nil => exact absurd rfl some_digit
    | cons first rest =>
        have range := digit first (List.mem_cons_self ..)
        have other : first ≠ 0x30 := fun zero => leading (congrArg some zero)
        have zero : IsDigit 0x30 := by decide
        simp only [List.reverse_cons, List.map_append, List.map_cons, List.map_nil,
          List.getLast_append_singleton]
        exact fun same => other (digitValue_injective range zero same)

theorem map_digitValue_injective {a b : List UInt8} (ha : ∀ byte ∈ a, IsDigit byte)
    (hb : ∀ byte ∈ b, IsDigit byte) (same : a.map digitValue = b.map digitValue) : a = b := by
  induction a generalizing b with
  | nil => exact (List.map_eq_nil_iff.mp same.symm).symm
  | cons first rest ih =>
      cases b with
      | nil => simp at same
      | cons first' rest' =>
          simp only [List.map_cons, List.cons.injEq] at same
          obtain ⟨hfirst, hrest⟩ := List.forall_mem_cons.mp ha
          obtain ⟨hfirst', hrest'⟩ := List.forall_mem_cons.mp hb
          rw [digitValue_injective hfirst hfirst' same.1, ih hrest hrest' same.2]

namespace Numeral

variable {a b : List UInt8}

theorem zero_or_leading (numeral : Numeral a) : a = [0x30] ∨ a.head? ≠ some 0x30 :=
  (Classical.em (a.head? = some 0x30)).imp numeral.canonical id

/-- Only `0` has the value zero. -/
theorem decimal_ne_zero (numeral : Numeral a) (leading : a.head? ≠ some 0x30) :
    decimal a ≠ 0 := by
  intro zero
  have spelled := digits_decimal numeral.digit leading
  rw [zero, Nat.digits_zero] at spelled
  exact numeral.nonempty (List.reverse_eq_nil_iff.mp (List.map_eq_nil_iff.mp spelled.symm))

/-- A numeral is determined by its value. -/
theorem decimal_injective (ha : Numeral a) (hb : Numeral b) (same : decimal a = decimal b) :
    a = b := by
  rcases ha.zero_or_leading with rfl | leading
  · rcases hb.zero_or_leading with rfl | leading'
    · rfl
    · exact absurd same.symm (hb.decimal_ne_zero leading')
  · rcases hb.zero_or_leading with rfl | leading'
    · exact absurd same (ha.decimal_ne_zero leading)
    · have spelled := digits_decimal ha.digit leading
      rw [same, digits_decimal hb.digit leading'] at spelled
      refine (List.reverse_injective (map_digitValue_injective ?_ ?_ spelled)).symm
      · exact fun byte mem => hb.digit byte (List.mem_reverse.mp mem)
      · exact fun byte mem => ha.digit byte (List.mem_reverse.mp mem)

/-- Digits of which the first is not zero. -/
theorem of_leading {first : UInt8} {rest : List UInt8}
    (digit : ∀ byte ∈ first :: rest, IsDigit byte) (ne : first ≠ 0x30) :
    Numeral (first :: rest) where
  nonempty := List.cons_ne_nil _ _
  digit := digit
  canonical zero := absurd (Option.some.inj zero) ne

/-- A digit other than zero before a numeral makes a numeral. -/
theorem cons (numeral : Numeral a) {first : UInt8} (digit : IsDigit first) (ne : first ≠ 0x30) :
    Numeral (first :: a) :=
  of_leading (List.forall_mem_cons.mpr ⟨digit, numeral.digit⟩) ne

end Numeral

end ZmqPractices.Lib

import Inquiry.Decimal.BaseTen

/-!
# Digits of numbers

The digits of a number tell it, without a needless zero in front.
-/
namespace Inquiry.Decimal

open BaseTen (natOfDigits)

theorem natOfDigits_digitsOf (n : Nat) : natOfDigits (digitsOf n) = n :=
  Nat.ofDigitChars_toDigits (by decide) (by decide)

theorem isDigit_of_mem_digitsOf {n : Nat} {c : Char} (h : c ∈ digitsOf n) : c.isDigit = true :=
  Nat.isDigit_of_mem_toDigits (by decide) (by decide) h

theorem digitsOf_ne_nil (n : Nat) : digitsOf n ≠ [] :=
  List.ne_nil_of_length_pos Nat.length_toDigits_pos

theorem digitsOf_of_lt {n : Nat} (h : n < 10) : digitsOf n = [Nat.digitChar n] :=
  Nat.toDigits_of_lt_base h

theorem digitsOf_of_le {n : Nat} (h : 10 ≤ n) :
    digitsOf n = digitsOf (n / 10) ++ [Nat.digitChar (n % 10)] :=
  Nat.toDigits_of_base_le (by decide) h

/-- The first digit of a number is no zero. -/
theorem head_digitsOf {n : Nat} (h : n ≠ 0) : (digitsOf n).head? ≠ some '0' := by
  induction n using Nat.strongRecOn with
  | ind n ih =>
    by_cases hlt : n < 10
    · have hdigit : ∀ m < 10, m ≠ 0 → some (Nat.digitChar m) ≠ some '0' := by decide
      rw [digitsOf_of_lt hlt]
      exact hdigit n hlt h
    · obtain ⟨d, ds, hds⟩ := List.exists_cons_of_ne_nil (digitsOf_ne_nil (n / 10))
      have hhead := ih (n / 10) (by omega) (by omega)
      rw [hds] at hhead
      rw [digitsOf_of_le (Nat.le_of_not_lt hlt), hds]
      exact hhead

theorem natOfDigits_eq (ds : List Char) : natOfDigits ds = Nat.ofDigitChars 10 ds 0 := rfl

theorem natOfDigits_append (ds es : List Char) :
    natOfDigits (ds ++ es) = natOfDigits ds * 10 ^ es.length + natOfDigits es := by
  rw [natOfDigits_eq, Nat.ofDigitChars_append, Nat.ofDigitChars_eq_ofDigitChars_zero, Nat.mul_comm]
  rfl

theorem natOfDigits_zeros (n : Nat) : natOfDigits (List.replicate n '0') = 0 := by
  rw [natOfDigits_eq, Nat.ofDigitChars_replicate_zero, Nat.mul_zero]

end Inquiry.Decimal

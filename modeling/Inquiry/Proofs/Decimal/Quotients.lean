import Inquiry.Proofs.Decimal.Doubles

/-!
# Rounded products and quotients

A quotient of integers, counted in units of the least double, is rounded to the nearest mantissa at
the exponent that its whole part asks for. Products and quotients of doubles are rounded that way, and
what is rounded that way only depends on the quotient, not on the integers that it is written with.
-/
namespace Float.Model.UnpackedFloat

open Inquiry Inquiry.Decimal

/-- The number nearest to a quotient of units. -/
def nearestTo (s : Sign) (num den : Nat) : UnpackedFloat :=
  carried s (roundDiv num (den * 2 ^ excess (num / den))) (excess (num / den) - 1074)

theorem nearestTo_mul_right (s : Sign) (num den : Nat) {c : Nat} (hc : 0 < c) :
    nearestTo s (num * c) (den * c) = nearestTo s num den := by
  unfold nearestTo
  rw [Nat.mul_div_mul_right _ _ hc, Nat.mul_right_comm den c, roundDiv_mul_right hc]

/-- Equal quotients are rounded alike. -/
theorem nearestTo_congr (s : Sign) {num den num' den' : Nat} (hden : 0 < den) (hden' : 0 < den')
    (h : num * den' = num' * den) : nearestTo s num den = nearestTo s num' den' := by
  rw [← nearestTo_mul_right s num den hden', h, Nat.mul_comm den den',
    nearestTo_mul_right s num' den' hden]

/-- The whole part of a quotient has as many digits as that of a multiple by a power of two, less the
power. -/
theorem log2_mul_two_pow_div {num den j : Nat} (hden : 0 < den) (hq : num / den ≠ 0) :
    (num * 2 ^ j / den).log2 = (num / den).log2 + j := by
  have hlow : 2 ^ j * (num / den) ≤ 2 ^ j * num / den := Nat.mul_div_le_mul_div_assoc (2 ^ j) num den
  have hhigh : 2 ^ j * num / den < 2 ^ j * (num / den + 1) := by
    rw [Nat.div_lt_iff_lt_mul hden, mul_assoc, Nat.mul_comm _ den]
    exact Nat.mul_lt_mul_of_pos_left (Nat.lt_mul_div_succ num hden) (Nat.two_pow_pos j)
  rw [Nat.mul_comm num]
  refine (Nat.log2_eq_iff ?_).mpr ⟨?_, ?_⟩
  · exact (Nat.lt_of_lt_of_le (Nat.mul_pos (Nat.two_pow_pos j) (Nat.pos_of_ne_zero hq)) hlow).ne'
  · calc 2 ^ ((num / den).log2 + j) = 2 ^ j * 2 ^ (num / den).log2 := by rw [pow_add, Nat.mul_comm]
      _ ≤ 2 ^ j * (num / den) := Nat.mul_le_mul_left _ (Nat.log2_self_le hq)
      _ ≤ 2 ^ j * num / den := hlow
  · calc 2 ^ j * num / den < 2 ^ j * (num / den + 1) := hhigh
      _ ≤ 2 ^ j * 2 ^ ((num / den).log2 + 1) := Nat.mul_le_mul_left _ Nat.lt_log2_self
      _ = 2 ^ ((num / den).log2 + j + 1) := by rw [← pow_add]; congr 1; omega

theorem roundWithAccuracy_units {s : Sign} {m num den j : Nat} {accuracy : Accuracy}
    (hden : 0 < den)
    (h : (ExtendedMantissa.ofMantissaAndAccuracy m accuracy).StandsFor num den)
    (hm : num / den = m) (hfull : j = 0 ∨ 2 ^ 52 ≤ m) :
    roundWithAccuracy .binary64 s m (j - 1074) accuracy = nearestTo s (num * 2 ^ j) den := by
  obtain ⟨x, hx⟩ : ∃ x, excess (num * 2 ^ j / den) = x := ⟨_, rfl⟩
  obtain ⟨k, hk⟩ : ∃ k, (max ((m.log2 : Int) + (j - 1074) - 52) (-1074) - (j - 1074)).toNat = k :=
    ⟨_, rfl⟩
  have hxk : x = k + j := by
    rcases hfull with rfl | hfull
    · rw [pow_zero, mul_one, hm, excess] at hx
      omega
    · have hlog : 52 ≤ m.log2 := (Nat.le_log2 (by omega)).mpr hfull
      rw [excess, log2_mul_two_pow_div hden (by omega), hm] at hx
      omega
  unfold nearestTo
  rw [roundWithAccuracy_eq hden h hm hk.symm, hx, hxk, pow_add, ← mul_assoc,
    roundDiv_mul_right (Nat.two_pow_pos j)]
  congr 1
  push_cast
  omega

theorem mul_eq {s t : Sign} {m n j : Nat} {e f : Int} {hm : 0 < m} {hn : 0 < n}
    (hj : e + f = j - 1074) (hfull : j = 0 ∨ 2 ^ 52 ≤ m * n) :
    mul .binary64 (finite s m e hm) (finite t n f hn) = nearestTo (s * t) (m * n * 2 ^ j) 1 := by
  change roundWithAccuracy .binary64 (s * t) (m * n) (e + f) .exact = _
  rw [hj, roundWithAccuracy_units Nat.one_pos (ExtendedMantissa.standsFor_exact _) (Nat.div_one _)
    hfull]

theorem standsFor_fraction {num den : Nat} (hden : 0 < den) :
    (ExtendedMantissa.ofMantissaAndAccuracy (num / den)
      (accuracyOfFraction (num % den) den)).StandsFor num den := by
  have hlt := Nat.mod_lt num hden
  unfold accuracyOfFraction
  split_ifs with hzero
  · refine ⟨rfl, ?_, ?_⟩
    · change false = true ↔ _
      simp
      omega
    · change false = true ↔ _
      simp [hzero]
  · rcases lt_trichotomy (2 * (num % den)) den with hlt' | heq | hgt
    · rw [compare_lt_iff_lt.mpr hlt']
      refine ⟨rfl, ?_, ?_⟩
      · change false = true ↔ _
        simp
        omega
      · change true = true ↔ _
        simp
        omega
    · rw [compare_eq_iff_eq.mpr heq]
      refine ⟨rfl, ?_, ?_⟩
      · change true = true ↔ _
        simp
        omega
      · change false = true ↔ _
        simp
        omega
    · rw [compare_gt_iff_gt.mpr hgt]
      refine ⟨rfl, ?_, ?_⟩
      · change true = true ↔ _
        simp
        omega
      · change true = true ↔ _
        simp
        omega

theorem div_eq {s t : Sign} {m n j : Nat} {e f : Int} {hm : 0 < m} {hn : 0 < n}
    (hj : e - f = j - 1074) :
    div .binary64 (finite s m e hm) (finite t n f hn) = nearestTo (s / t) (m * 2 ^ j) n := by
  have htarget : Format.binary64.targetExponent (totalExponent m e - totalExponent n f) =
      max ((m.log2 : Int) - n.log2 + (e - f) - 53) (-1074) := by
    unfold Format.targetExponent totalExponent
    rw [mantissaBits_binary64]
    change max _ (-1074 : Int) = _
    congr 1
    push_cast
    omega
  -- The dividend is shifted by `d`, so that the whole part of the quotient has a full mantissa.
  obtain ⟨k, hk⟩ : ∃ k : Nat, min (e - f) (max ((m.log2 : Int) - n.log2 + (e - f) - 53) (-1074)) =
      k - 1074 := ⟨(min (e - f) (max ((m.log2 : Int) - n.log2 + (e - f) - 53) (-1074)) + 1074).toNat,
        by omega⟩
  obtain ⟨d, hd⟩ : ∃ d, (e - f - (k - 1074)).toNat = d := ⟨_, rfl⟩
  have hfull : k = 0 ∨ 2 ^ 52 ≤ m * 2 ^ d / n := by
    refine or_iff_not_imp_left.mpr fun hpos => (Nat.le_div_iff_mul_le hn).mpr ?_
    calc 2 ^ 52 * n ≤ 2 ^ 52 * 2 ^ (n.log2 + 1) := Nat.mul_le_mul_left _ Nat.lt_log2_self.le
      _ = 2 ^ (52 + (n.log2 + 1)) := (pow_add ..).symm
      _ ≤ 2 ^ (m.log2 + d) := Nat.pow_le_pow_right Nat.two_pos (by omega)
      _ = 2 ^ m.log2 * 2 ^ d := pow_add ..
      _ ≤ m * 2 ^ d := Nat.mul_le_mul_right _ (Nat.log2_self_le hm.ne')
  have hunits : m * 2 ^ j = m * 2 ^ d * 2 ^ k := by
    rw [mul_assoc, ← pow_add, show j = d + k by omega]
  change roundWithAccuracy .binary64 (s / t)
    (m <<< (e - f - min (e - f) (Format.binary64.targetExponent
      (totalExponent m e - totalExponent n f))).toNat / n) _ (accuracyOfFraction (_ % n) n) = _
  rw [htarget, hk, hd, Nat.shiftLeft_eq,
    roundWithAccuracy_units hn (standsFor_fraction hn) rfl hfull, hunits]

end Float.Model.UnpackedFloat
